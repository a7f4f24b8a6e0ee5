import ShaderBridge.Proofs.Text.Lines
import ShaderBridge.Storage.Path
set_option autoImplicit false

/-! Reading and writing of paths: which characters a written path has, and how a path reads that
was put together from a directory and a name. -/

namespace ShaderBridge

theorem Text.join_concat {separator : Text} {parts : List Text} (some : parts ≠ [])
    (last : Text) :
    Text.join separator (parts ++ [last]) = Text.join separator parts ++ separator ++ last := by
  induction parts with
  | nil => exact absurd rfl some
  | cons first parts ih =>
      cases parts with
      | nil => simp [Text.join]
      | cons second parts =>
          have more := ih (List.cons_ne_nil second parts)
          rw [List.cons_append] at more
          rw [List.cons_append, List.cons_append, Text.join_cons_cons, more, Text.join_cons_cons]
          simp only [List.append_assoc]

namespace Path

section
variable {char : Char} (slash : char ≠ '/') (dot : char ≠ '.')
include slash dot

theorem mem_toText (path : Path) :
    char ∈ path.toText ↔ ∃ part ∈ path.parts, char ∈ part := by
  have body := Text.mem_join (slash ∘ List.mem_singleton.mp) path.parts
  cases anchor : path.anchor with
  | relative =>
      cases none : path.parts with
      | nil =>
          have written : path.toText = ['.'] := by
            unfold toText
            rw [anchor, none]
            rfl
          simp [written, dot]
      | cons first rest =>
          rw [none] at body
          have written : path.toText = Text.join ['/'] (first :: rest) := by
            unfold toText
            rw [anchor, none]
            rfl
          rw [written]
          exact body
  | root =>
      have written : path.toText = '/' :: Text.join ['/'] path.parts := by
        unfold toText
        rw [anchor]
        rfl
      rw [written, List.mem_cons, body]
      simp [slash]
  | doubleRoot =>
      have written : path.toText = '/' :: '/' :: Text.join ['/'] path.parts := by
        unfold toText
        rw [anchor]
        rfl
      rw [written, List.mem_cons, List.mem_cons, body]
      simp [slash]

theorem exists_mem_partsOf (text : Text) :
    (∃ part ∈ partsOf text, char ∈ part) ↔ char ∈ text := by
  have split : char ∈ text ↔ ∃ part ∈ text.splitOn '/', char ∈ part := by
    have pieces := Text.mem_join (slash ∘ List.mem_singleton.mp) (text.splitOn '/')
    have whole : Text.join ['/'] (text.splitOn '/') = text := List.intercalate_splitOn '/'
    rwa [whole] at pieces
  rw [split]
  constructor
  · rintro ⟨part, member, inside⟩
    exact ⟨part, (List.mem_filter.mp member).1, inside⟩
  · rintro ⟨part, member, inside⟩
    refine ⟨part, List.mem_filter.mpr ⟨member, ?_⟩, inside⟩
    have some : part ≠ [] := List.ne_nil_of_mem inside
    have other : part ≠ ['.'] := by
      rintro rfl
      exact dot (List.mem_singleton.mp inside)
    simp [some, other]

theorem mem_toText_ofText (text : Text) : char ∈ (ofText text).toText ↔ char ∈ text := by
  rw [mem_toText slash dot]
  exact exists_mem_partsOf slash dot text

end

structure IsName (name : Text) : Prop where
  some : name ≠ []
  flat : '/' ∉ name
  own : name ≠ ['.']
  lower : name ≠ ['.', '.']

theorem partsOf_name {name : Text} (named : IsName name) : partsOf name = [name] := by
  unfold partsOf
  rw [List.splitOn_eq_singleton named.flat]
  simp [named.some, named.own]

theorem anchorOf_name {name : Text} (named : IsName name) : anchorOf name = .relative := by
  cases name with
  | nil => rfl
  | cons first rest =>
      have apart : first ≠ '/' := by
        rintro rfl
        exact named.flat List.mem_cons_self
      simp [anchorOf, apart]

theorem child_name (directory : Path) {name : Text} (named : IsName name) :
    directory.child name = ⟨directory.anchor, directory.parts ++ [name]⟩ := by
  have reading : ofText name = ⟨.relative, [name]⟩ := by
    unfold ofText
    rw [anchorOf_name named, partsOf_name named]
  unfold child
  rw [reading]
  rfl

theorem toText_child (directory : Path) (some : directory.parts ≠ []) {name : Text}
    (named : IsName name) : (directory.child name).toText = directory.toText ++ '/' :: name := by
  have filled : directory.parts ++ [name] ≠ [] := List.concat_ne_nil name directory.parts
  have body : Text.join ['/'] (directory.parts ++ [name]) = _ := Text.join_concat some name
  rw [child_name directory named]
  unfold toText
  cases directory.anchor <;> simp [some, body]

theorem within_child_name (base directory : Path) {name : Text} (named : IsName name) :
    (base.within (directory.child name)).parts = (base.within directory).parts ++ [name] := by
  rw [child_name directory named]
  cases anchor : directory.anchor with
  | relative => simp [within, anchor]
  | root => simp [within, anchor]
  | doubleRoot => simp [within, anchor]

theorem partsOf_append_slash (front back : Text) :
    partsOf (front ++ '/' :: back) = partsOf front ++ partsOf back := by
  unfold partsOf
  rw [List.splitOn_append_cons_self, List.filter_append]

/-- Only the first three characters of a path say where it starts from, and the third one only
whether a row of slashes goes on. -/
theorem anchorOf_append {front back : Text} (some : front ≠ [])
    (broken : ∀ rest, back = '/' :: rest → ∀ start, front ≠ start ++ ['/']) :
    anchorOf (front ++ back) = anchorOf front := by
  have halted : ∀ start, front = start ++ ['/'] → back.head? ≠ .some '/' := by
    intro start ends begins
    obtain ⟨rest, goes⟩ := List.head?_eq_some_iff.mp begins
    exact broken rest goes start ends
  -- one case for each number of characters that can be missing from the first three
  rcases front with _ | ⟨first, _ | ⟨second, _ | ⟨third, front⟩⟩⟩
  · exact absurd rfl some
  · by_cases one : first = '/'
    · subst one
      have halted := halted [] rfl
      rcases back with _ | ⟨next, back⟩
      · rfl
      · have apart : next ≠ '/' := by
          rintro rfl
          exact halted rfl
        simp [anchorOf, apart]
    · simp [anchorOf, one]
  · by_cases one : first = '/'
    · by_cases two : second = '/'
      · subst one two
        have halted := halted ['/'] rfl
        rcases back with _ | ⟨next, back⟩
        · rfl
        · have apart : next ≠ '/' := by
            rintro rfl
            exact halted rfl
          simp [anchorOf, apart]
      · simp [anchorOf, one, two]
    · simp [anchorOf, one]
  · by_cases one : first = '/' <;> by_cases two : second = '/' <;>
      by_cases three : third = '/' <;> simp [anchorOf, one, two, three]

/-- A path as it is read from a text. -/
def IsRead (path : Path) : Prop := ofText path.toText = path

def Kept (parts : List Text) : Prop := ∀ part ∈ parts, '/' ∉ part ∧ part ≠ [] ∧ part ≠ ['.']

private theorem not_mem_of_mem_splitOn {mark : Char} {text part : Text}
    (member : part ∈ text.splitOn mark) : mark ∉ part := by
  induction text generalizing part with
  | nil =>
      rw [List.splitOn_nil, List.mem_singleton] at member
      rw [member]
      exact List.not_mem_nil
  | cons char text ih =>
      rw [List.splitOn_cons_eq_if_modifyHead] at member
      by_cases cut : char = mark
      · rw [if_pos (beq_iff_eq.mpr cut), List.mem_cons] at member
        rcases member with rfl | member
        · exact List.not_mem_nil
        · exact ih member
      · rw [if_neg (cut ∘ beq_iff_eq.mp)] at member
        cases pieces : text.splitOn mark with
        | nil => exact absurd pieces (List.splitOn_ne_nil mark text)
        | cons first rest =>
            rw [pieces, List.modifyHead_cons, List.mem_cons] at member
            rcases member with rfl | member
            · have flat := ih (pieces ▸ List.mem_cons_self)
              simp [flat, Ne.symm cut]
            · exact ih (pieces ▸ List.mem_cons_of_mem first member)

theorem kept_partsOf (text : Text) : Kept (partsOf text) := by
  intro part member
  obtain ⟨piece, filled⟩ := List.mem_filter.mp member
  have whole : part ≠ [] ∧ part ≠ ['.'] := by simpa using filled
  exact ⟨not_mem_of_mem_splitOn piece, whole⟩

private theorem partsOf_join {parts : List Text} (kept : Kept parts) :
    partsOf (Text.join ['/'] parts) = parts := by
  cases none : parts with
  | nil => rfl
  | cons first rest =>
      rw [← none]
      have some : parts ≠ [] := none ▸ List.cons_ne_nil first rest
      have split : (Text.join ['/'] parts).splitOn '/' = parts :=
        List.splitOn_intercalate '/' (fun part member => (kept part member).1) some
      unfold partsOf
      rw [split]
      refine List.filter_eq_self.mpr ?_
      intro part member
      obtain ⟨_flat, filled, other⟩ := kept part member
      simp [filled, other]

private theorem head?_join_ne {parts : List Text} (kept : Kept parts) :
    ∀ rest, Text.join ['/'] parts ≠ '/' :: rest := by
  intro tail begins
  rcases parts with _ | ⟨_ | ⟨char, first⟩, rest⟩
  · cases begins
  · exact (kept [] List.mem_cons_self).2.1 rfl
  · have flat := (kept (char :: first) List.mem_cons_self).1
    rcases rest with _ | ⟨second, rest⟩ <;>
      · obtain ⟨rfl, _⟩ := List.cons.inj begins
        exact flat List.mem_cons_self

theorem isRead_of_kept (anchor : Anchor) {parts : List Text} (kept : Kept parts) :
    IsRead ⟨anchor, parts⟩ := by
  have body := partsOf_join kept
  have bare := head?_join_ne kept
  have slashed : partsOf ('/' :: Text.join ['/'] parts) = parts :=
    (partsOf_append_slash [] _).trans body
  unfold IsRead ofText
  cases anchor with
  | relative =>
      cases parts with
      | nil => rfl
      | cons first rest =>
          have start : anchorOf (Text.join ['/'] (first :: rest)) = .relative := by
            cases written : Text.join ['/'] (first :: rest) with
            | nil => rfl
            | cons char more =>
                have apart : char ≠ '/' := by
                  rintro rfl
                  exact bare more written
                simp [anchorOf, apart]
          exact congr (congrArg Path.mk start) body
  | root =>
      have start : anchorOf ('/' :: Text.join ['/'] parts) = .root := by
        cases written : Text.join ['/'] parts with
        | nil => rfl
        | cons char more =>
            have apart : char ≠ '/' := by
              rintro rfl
              exact bare more written
            simp [anchorOf, apart]
      exact congr (congrArg Path.mk start) slashed
  | doubleRoot =>
      have start : anchorOf ('/' :: '/' :: Text.join ['/'] parts) = .doubleRoot := by
        cases written : Text.join ['/'] parts with
        | nil => rfl
        | cons char more =>
            have apart : char ≠ '/' := by
              rintro rfl
              exact bare more written
            simp [anchorOf, apart]
      have twice : partsOf ('/' :: '/' :: Text.join ['/'] parts) = parts :=
        (partsOf_append_slash [] _).trans slashed
      exact congr (congrArg Path.mk start) twice

theorem isRead_ofText (text : Text) : (ofText text).IsRead :=
  isRead_of_kept (anchorOf text) (kept_partsOf text)

theorem kept_of_isRead {path : Path} (read : path.IsRead) : Kept path.parts := by
  have kept := kept_partsOf path.toText
  have same : partsOf path.toText = path.parts := congrArg Path.parts read
  rwa [same] at kept

private theorem mem_foldl_foldPart {parts reversed : List Text} {part : Text}
    (member : part ∈ parts.foldl foldPart reversed) :
    part ∈ reversed ∨ (part ∈ parts ∧ part ≠ "..".toList) := by
  induction parts generalizing reversed with
  | nil => exact .inl member
  | cons first parts ih =>
      rw [List.foldl_cons] at member
      rcases ih member with held | ⟨later, level⟩
      · unfold foldPart at held
        by_cases up : first = "..".toList
        · rw [if_pos up] at held
          exact .inl (List.mem_of_mem_tail held)
        · rw [if_neg up, List.mem_cons] at held
          rcases held with rfl | held
          · exact .inr ⟨List.mem_cons_self, up⟩
          · exact .inl held
      · exact .inr ⟨List.mem_cons_of_mem first later, level⟩

private theorem foldl_foldPart_of_level {parts : List Text}
    (level : ∀ part ∈ parts, part ≠ "..".toList) (reversed : List Text) :
    parts.foldl foldPart reversed = parts.reverse ++ reversed := by
  induction parts generalizing reversed with
  | nil => rfl
  | cons first parts ih =>
      have here : foldPart reversed first = first :: reversed := by
        unfold foldPart
        rw [if_neg (level first List.mem_cons_self)]
      rw [List.foldl_cons, here, ih fun part member => level part (List.mem_cons_of_mem _ member)]
      simp

theorem mem_absolute_parts {base path : Path} {part : Text}
    (member : part ∈ (absolute base path).parts) :
    part ∈ (base.within path).parts ∧ part ≠ "..".toList := by
  have folded : part ∈ (base.within path).parts.foldl foldPart [] := List.mem_reverse.mp member
  rcases mem_foldl_foldPart folded with impossible | found
  · cases impossible
  · exact found

theorem isRead_absolute {base path : Path} (baseRead : base.IsRead) (read : path.IsRead) :
    (absolute base path).IsRead := by
  refine isRead_of_kept _ ?_
  intro part member
  have inside : part ∈ (base.within path).parts := (mem_absolute_parts member).1
  unfold within at inside
  cases anchor : path.anchor with
  | relative =>
      simp only [anchor, List.mem_append] at inside
      rcases inside with front | back
      · exact kept_of_isRead baseRead part front
      · exact kept_of_isRead read part back
  | root | doubleRoot =>
      simp only [anchor] at inside
      exact kept_of_isRead read part inside

theorem absolute_anchor_ne {base : Path} (rooted : base.anchor ≠ .relative) (path : Path) :
    (absolute base path).anchor ≠ .relative := by
  unfold absolute within
  cases anchor : path.anchor with
  | relative => simpa [anchor] using rooted
  | root | doubleRoot => simp [anchor]

/-- An absolute path means itself in every directory. -/
theorem absolute_absolute {base path : Path} (rooted : base.anchor ≠ .relative) (other : Path) :
    absolute other (absolute base path) = absolute base path := by
  have stays : other.within (absolute base path) = absolute base path := by
    have anchored := absolute_anchor_ne rooted path
    unfold within
    cases anchor : (absolute base path).anchor with
    | relative => exact absurd anchor anchored
    | root | doubleRoot => rfl
  have level : ∀ part ∈ (absolute base path).parts, part ≠ "..".toList :=
    fun part member => (mem_absolute_parts member).2
  generalize absolute base path = whole at stays level
  change (⟨(other.within whole).anchor, ((other.within whole).parts.foldl foldPart []).reverse⟩ :
    Path) = whole
  rw [stays, foldl_foldPart_of_level level, List.append_nil, List.reverse_reverse]

end Path
end ShaderBridge
