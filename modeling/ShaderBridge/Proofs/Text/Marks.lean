import ShaderBridge.Proofs.Text.Removal
set_option autoImplicit false

/-! Removal, character by character. A list of marks says of each character of a text whether it
goes; the matches of a pattern mark a text, and the characters without a mark are what its removal
leaves (`leave_marks`). The marks of a second removal, which are those of what the first one left,
are laid between the marks of the first (`leave_layered`). -/

namespace ShaderBridge

namespace Text

/-- The characters of a text that bear no mark. -/
def leave : List Bool → Text → Text
  | true :: marks, _ :: text => leave marks text
  | false :: marks, char :: text => char :: leave marks text
  | _, _ => []

/-- The marks of a first removal with the marks of a second one at the characters left by the
first. -/
def layered : List Bool → List Bool → List Bool
  | true :: first, second => true :: layered first second
  | false :: first, mark :: second => mark :: layered first second
  | first, _ => first

theorem leave_append {marks : List Bool} {front : Text} (long : marks.length = front.length)
    (others : List Bool) (rest : Text) :
    leave (marks ++ others) (front ++ rest) = leave marks front ++ leave others rest := by
  induction marks generalizing front with
  | nil =>
      obtain rfl := List.eq_nil_of_length_eq_zero long.symm
      rfl
  | cons mark marks ih =>
      cases front with
      | nil => cases long
      | cons char front =>
          have rest := ih (Nat.succ.inj long)
          cases mark with
          | true => exact rest
          | false => exact congrArg (char :: ·) rest

theorem leave_all (text : Text) : leave (List.replicate text.length true) text = [] := by
  induction text with
  | nil => rfl
  | cons char text ih => exact ih

theorem length_leave {marks : List Bool} {text : Text} (long : marks.length = text.length) :
    (leave marks text).length = marks.count false := by
  induction marks generalizing text with
  | nil => rfl
  | cons mark marks ih =>
      cases text with
      | nil => cases long
      | cons char text =>
          have rest := ih (Nat.succ.inj long)
          cases mark with
          | true => exact rest
          | false => rw [List.count_cons_self, ← rest]; rfl

theorem layered_getElem?_of_first {first : List Bool} (second : List Bool) {offset : Nat}
    (marked : first[offset]? = some true) : (layered first second)[offset]? = some true := by
  fun_induction layered first second generalizing offset with
  | case1 first second ih =>
      cases offset with
      | zero => rfl
      | succ offset => exact ih marked
  | case2 first mark second ih =>
      cases offset with
      | zero => cases marked
      | succ offset => exact ih marked
  | case3 => exact marked

private theorem count_marked (marks : List Bool) : (true :: marks).count false = marks.count false :=
  List.count_cons_of_ne Bool.noConfusion

theorem layered_append {first second : List Bool} (long : second.length = first.count false)
    (others more : List Bool) :
    layered (first ++ others) (second ++ more) = layered first second ++ layered others more := by
  induction first generalizing second with
  | nil =>
      obtain rfl := List.eq_nil_of_length_eq_zero long
      rfl
  | cons mark first ih =>
      cases mark with
      | true =>
          rw [count_marked] at long
          exact congrArg (true :: ·) (ih long)
      | false =>
          rw [List.count_cons_self] at long
          cases second with
          | nil => cases long
          | cons second marks => exact congrArg (second :: ·) (ih (Nat.succ.inj long))

theorem layered_append_taken (count : Nat) (others second : List Bool) :
    layered (List.replicate count true ++ others) second =
      List.replicate count true ++ layered others second := by
  induction count with
  | zero => rfl
  | succ count ih => exact congrArg (true :: ·) ih

theorem layered_all (first : List Bool) :
    layered first (List.replicate (first.count false) true) = List.replicate first.length true := by
  induction first with
  | nil => rfl
  | cons mark first ih =>
      cases mark with
      | true =>
          rw [count_marked]
          exact congrArg (true :: ·) ih
      | false =>
          rw [List.count_cons_self]
          exact congrArg (true :: ·) ih

theorem leave_layered {first second : List Bool} {text : Text} (long : first.length = text.length)
    (rest : second.length = first.count false) :
    leave (layered first second) text = leave second (leave first text) := by
  induction first generalizing second text with
  | nil =>
      obtain rfl := List.eq_nil_of_length_eq_zero rest
      rfl
  | cons mark first ih =>
      cases text with
      | nil => cases long
      | cons char text =>
          cases mark with
          | true =>
              rw [count_marked] at rest
              exact ih (Nat.succ.inj long) rest
          | false =>
              rw [List.count_cons_self] at rest
              cases second with
              | nil => cases rest
              | cons second marks =>
                  have later := ih (Nat.succ.inj long) (Nat.succ.inj rest)
                  cases second with
                  | true => exact later
                  | false => exact congrArg (char :: ·) later

end Text

def Piece.marks : Piece → List Bool
  | .kept _ => [false]
  | .found text => List.replicate text.length true

namespace Pattern

def marks (pattern : Pattern) (text : Text) : List Bool := (pattern.pieces text).flatMap Piece.marks

end Pattern

theorem Piece.length_marks (piece : Piece) : piece.marks.length = piece.text.length := by
  cases piece with
  | kept char => rfl
  | found text => exact List.length_replicate

theorem Piece.leave_marks (piece : Piece) :
    Text.leave piece.marks piece.text = piece.replaced fun _ => [] := by
  cases piece with
  | kept char => rfl
  | found text => exact Text.leave_all text

namespace Pattern

private theorem length_flatMap_marks (pieces : List Piece) :
    (pieces.flatMap Piece.marks).length = (pieces.flatMap Piece.text).length := by
  rw [List.length_flatMap, List.length_flatMap]
  exact congrArg List.sum (List.map_congr_left fun piece _member => piece.length_marks)

theorem remove_eq_remains (pattern : Pattern) (text : Text) :
    pattern.remove text = remains (pattern.pieces text) := rfl

theorem length_marks (pattern : Pattern) (text : Text) :
    (pattern.marks text).length = text.length := by
  have long := length_flatMap_marks (pattern.pieces text)
  rwa [text_pieces] at long

/-- The characters outside the matches are what their removal leaves. -/
theorem leave_marks (pattern : Pattern) (text : Text) :
    Text.leave (pattern.marks text) text = pattern.remove text := by
  have whole : ∀ pieces : List Piece,
      Text.leave (pieces.flatMap Piece.marks) (pieces.flatMap Piece.text) = remains pieces := by
    intro pieces
    induction pieces with
    | nil => rfl
    | cons piece pieces ih =>
        rw [List.flatMap_cons, List.flatMap_cons, Text.leave_append piece.length_marks,
          piece.leave_marks, ih]
        rfl
  have left := whole (pattern.pieces text)
  rwa [text_pieces] at left

theorem count_marks (pattern : Pattern) (text : Text) :
    (pattern.marks text).count false = (pattern.remove text).length := by
  rw [← leave_marks, Text.length_leave (length_marks pattern text)]

end Pattern

/-- What the scan reads at the start of a text does not depend on what stands behind it. -/
def Scan.Local (scan : Scan) : Prop :=
  ∀ front rest left, scan (front ++ rest) = some (left ++ rest) ↔ scan front = some left

namespace Pattern

/-- Two texts in a row are cut each by itself, unless a match reaches from one into the other. -/
theorem pieces_append_or {scan : Scan} (consumes : scan.Consumes) (near : scan.Local)
    (front rest : Text) :
    scan.anywhere.pieces (front ++ rest) = scan.anywhere.pieces front ++ scan.anywhere.pieces rest ∨
      (scan.anywhere.marks (front ++ rest))[front.length]? = some true := by
  have unread : scan [] = none := by
    refine Option.eq_none_iff_forall_ne_some.mpr fun left read => ?_
    obtain ⟨stretch, filled, same⟩ := consumes [] left read
    exact filled (List.append_eq_nil_iff.mp same.symm).1
  induction size : front.length using Nat.strongRecOn generalizing front with
  | ind size ih =>
      subst size
      unfold marks at ih ⊢
      cases read : scan (front ++ rest) with
      | none =>
          cases front with
          | nil => exact .inl (by rw [pieces_anywhere_nil unread]; rfl)
          | cons char front =>
              have alone : scan (char :: front) = none := by
                refine Option.eq_none_iff_forall_ne_some.mpr fun left found => ?_
                rw [(near _ rest left).mpr found] at read
                cases read
              rw [List.cons_append] at read ⊢
              rw [pieces_anywhere_cons alone, pieces_anywhere_cons read]
              exact (ih front.length (Nat.lt_succ_self _) front rfl).imp (congrArg (Piece.kept char :: ·)) id
      | some left =>
          obtain ⟨stretch, filled, split⟩ := consumes _ _ read
          -- The first stretch that is read lies in front of the cut, or it reaches over it.
          have reach : (∃ more, front = stretch ++ more ∧ left = more ++ rest) ∨
              ∃ more, more ≠ [] ∧ stretch = front ++ more ∧ rest = more ++ left := by
            rcases List.append_eq_append_iff.mp split with ⟨more, longer, behind⟩ | inside
            · by_cases none : more = []
              · subst none
                exact .inl ⟨[], by simp [longer], behind.symm⟩
              · exact .inr ⟨more, none, longer, behind⟩
            · exact .inl inside
          rcases reach with ⟨more, rfl, rfl⟩ | ⟨more, some, rfl, rfl⟩
          · have alone := (near _ _ _).mp read
            have positive := List.length_pos_iff.mpr filled
            rw [List.append_assoc] at read ⊢
            rw [pieces_anywhere_append filled alone, pieces_anywhere_append filled read]
            have shorter : more.length < (stretch ++ more).length := by
              rw [List.length_append]
              omega
            refine (ih more.length shorter more rfl).imp (congrArg (Piece.found stretch :: ·)) ?_
            intro marked
            rw [List.flatMap_cons, Piece.marks, List.getElem?_append_right (by simp)]
            simpa using marked
          · rw [← List.append_assoc] at read ⊢
            rw [pieces_anywhere_append filled read]
            refine .inr ?_
            have positive := List.length_pos_iff.mpr some
            have within : front.length < (List.replicate (front ++ more).length true).length := by
              rw [List.length_replicate, List.length_append]
              omega
            rw [List.flatMap_cons, Piece.marks, List.getElem?_append_left within,
              List.getElem?_eq_getElem within, List.getElem_replicate]

end Pattern
end ShaderBridge
