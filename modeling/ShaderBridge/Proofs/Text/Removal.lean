import ShaderBridge.Proofs.Text.Parts
set_option autoImplicit false

/-! What stays of a text when the matches of a pattern are removed. A stretch that no match reaches
into stays (`remove_around`), and so does what is met first on the way back from a place, if it is met
where a match begins (`behind_kept`, `behind_word_remove`). -/

namespace ShaderBridge

namespace Text

/-- On the way back from the end, past characters of one class, a character of the other is met
first, or none. -/
def Behind (passed wanted : Char → Bool) (text : Text) : Prop :=
  (text.reverse.dropWhile passed).head?.all wanted = true

instance (passed wanted : Char → Bool) (text : Text) : Decidable (Behind passed wanted text) :=
  inferInstanceAs (Decidable (_ = true))

section
variable {passed wanted : Char → Bool}

theorem behind_nil : Behind passed wanted [] := rfl

theorem behind_append_passed {stretch : Text} (all : ∀ char ∈ stretch, passed char = true)
    (text : Text) : Behind passed wanted (text ++ stretch) ↔ Behind passed wanted text := by
  unfold Behind
  rw [List.reverse_append,
    List.dropWhile_append_of_pos fun char member => all char (List.mem_reverse.mp member)]

private theorem all_passed_or (passed : Char → Bool) (text : Text) :
    (∀ char ∈ text, passed char = true) ∨
      ∃ front last rest, text = front ++ last :: rest ∧ passed last = false ∧
        ∀ char ∈ rest, passed char = true := by
  induction text using List.reverseRecOn with
  | nil => exact .inl nofun
  | append_singleton text char ih =>
      cases known : passed char with
      | false => exact .inr ⟨text, char, [], rfl, known, nofun⟩
      | true =>
          have final : ∀ other ∈ [char], passed other = true := List.forall_mem_singleton.mpr known
          refine ih.imp (fun all => List.forall_mem_append.mpr ⟨all, final⟩) ?_
          rintro ⟨front, last, rest, rfl, stays, all⟩
          exact ⟨front, last, rest ++ [char], by simp, stays, List.forall_mem_append.mpr ⟨all, final⟩⟩

theorem behind_of_last {front rest : Text} {last : Char} (stays : passed last = false)
    (all : ∀ char ∈ rest, passed char = true) :
    Behind passed wanted (front ++ last :: rest) ↔ wanted last = true := by
  rw [List.append_cons, behind_append_passed all]
  unfold Behind
  rw [List.reverse_concat, List.dropWhile_cons_of_neg (by simp [stays])]
  rfl

theorem Behind.append_congr {text other : Text}
    (implied : Behind passed wanted text → Behind passed wanted other) (stretch : Text)
    (behind : Behind passed wanted (text ++ stretch)) : Behind passed wanted (other ++ stretch) := by
  rcases all_passed_or passed stretch with all | ⟨front, last, rest, rfl, stays, all⟩
  · rw [behind_append_passed all] at behind ⊢
    exact implied behind
  · rw [← List.append_assoc, behind_of_last stays all] at behind ⊢
    exact behind

theorem Behind.met {text stretch : Text} (behind : Behind passed wanted (text ++ stretch))
    {char : Char} (member : char ∈ stretch) (stays : passed char = false) :
    ∃ front last rest, stretch = front ++ last :: rest ∧ passed last = false ∧ wanted last = true ∧
      ∀ char ∈ rest, passed char = true := by
  rcases all_passed_or passed stretch with all | ⟨front, last, rest, rfl, apart, all⟩
  · rw [all char member] at stays
    cases stays
  · rw [← List.append_assoc, behind_of_last apart all] at behind
    exact ⟨front, last, rest, rfl, apart, behind, all⟩

theorem Behind.of_append {text stretch : Text} (behind : Behind passed wanted (text ++ stretch)) :
    Behind passed wanted stretch :=
  behind.append_congr (fun _behind => behind_nil) stretch

end

end Text

namespace Pattern

open Text (Behind startsWord endsWord tokens spell)

variable {pattern : Pattern}

/-- A match among the pieces stands behind what the pieces before it are cut from. -/
theorem Cut.place {before : Option Char} {text stretch : Text} {early late : List Piece}
    (cut : Cut pattern before text (early ++ .found stretch :: late)) :
    ∃ rest, text = early.flatMap Piece.text ++ (stretch ++ rest) ∧
      pattern ((early.flatMap Piece.text).getLast?.or before) (stretch ++ rest) =
        some stretch.length := by
  induction early generalizing before text with
  | nil =>
      cases cut with
      | found _filled matched _rest => exact ⟨_, rfl, matched⟩
  | cons piece early ih =>
      rw [List.cons_append] at cut
      cases cut with
      | @kept _before char text _pieces _none rest =>
          obtain ⟨behind, rfl, matched⟩ := ih rest
          refine ⟨behind, rfl, ?_⟩
          rw [← matched, ← Text.getLast?_cons_or char _ before]
          rfl
      | @found _before other text _pieces filled _matched rest =>
          obtain ⟨behind, rfl, matched⟩ := ih rest
          refine ⟨behind, by rw [List.flatMap_cons, List.append_assoc]; rfl, ?_⟩
          rw [← matched, ← Text.getLast?_append_or filled _ before]
          rfl

/-- Where a pattern matches, some match is found, perhaps one that began before. -/
theorem Cut.across {before : Option Char} {text front rest : Text} {pieces : List Piece}
    (cut : Cut pattern before text pieces) (split : text = front ++ rest)
    (matched : pattern (front.getLast?.or before) rest ≠ none) :
    ∃ first left right behind, front = first ++ left ∧ rest = right ++ behind ∧ right ≠ [] ∧
      .found (left ++ right) ∈ pieces ∧
        pattern (first.getLast?.or before) (left ++ right ++ behind) = some (left ++ right).length := by
  induction cut generalizing front with
  | done none =>
      obtain ⟨rfl, rfl⟩ := List.append_eq_nil_iff.mp split.symm
      exact absurd none matched
  | @kept before char text pieces none _rest ih =>
      cases front with
      | nil =>
          rw [List.nil_append] at split
          exact absurd none (split ▸ matched)
      | cons other front =>
          obtain ⟨rfl, later⟩ := List.cons.inj split
          rw [Text.getLast?_cons_or] at matched
          obtain ⟨first, left, right, behind, rfl, rfl, filled, member, found⟩ := ih later matched
          exact ⟨char :: first, left, right, behind, rfl, rfl, filled, List.mem_cons_of_mem _ member,
            by rwa [Text.getLast?_cons_or]⟩
  | @found before stretch text pieces filled found _rest ih =>
      rcases List.append_eq_append_iff.mp split with
        ⟨more, rfl, rfl⟩ | ⟨more, rfl, rfl⟩
      · -- the place lies behind the match
        rw [Text.getLast?_append_or filled] at matched
        obtain ⟨first, left, right, behind, rfl, rfl, some, member, here⟩ := ih rfl matched
        exact ⟨stretch ++ first, left, right, behind, (List.append_assoc _ _ _).symm, rfl, some,
          List.mem_cons_of_mem _ member, by rwa [Text.getLast?_append_or filled]⟩
      · by_cases reached : more = []
        · subst reached
          rw [List.append_nil] at filled found ih ⊢
          rw [List.nil_append] at split matched
          have shifted : front.getLast?.or before = ([] : Text).getLast?.or front.getLast? := by
            rw [← Text.getLast?_append_or filled, List.append_nil]
          rw [shifted] at matched
          obtain ⟨first, left, right, behind, none, rfl, some, member, here⟩ := ih rfl matched
          obtain ⟨rfl, rfl⟩ := List.append_eq_nil_iff.mp none.symm
          refine ⟨front, [], right, behind, (List.append_nil _).symm, rfl, some,
            List.mem_cons_of_mem _ member, ?_⟩
          rw [shifted]
          exact here
        · exact ⟨[], front, more, text, rfl, rfl, reached, List.mem_cons_self, found⟩

theorem occursIn_of_matched (sound : pattern.Sound) {text front rest : Text}
    (split : text = front ++ rest) (matched : pattern front.getLast? rest ≠ none) :
    pattern.occursIn text = true := by
  rw [← Option.or_none (o := front.getLast?)] at matched
  obtain ⟨_first, _left, _right, _behind, _front, _rest, _reached, member, _found⟩ :=
    (cut_pieces sound text).across split matched
  exact List.any_eq_true.mpr ⟨_, member, rfl⟩

section
variable {passed wanted : Char → Bool}

def remains (pieces : List Piece) : Text := pieces.flatMap (Piece.replaced fun _ => [])

/-- What is met on the way back through a text is met in what stays of it, if it is met where the
matches begin. -/
theorem behind_kept {pieces : List Piece}
    (begins : ∀ first stretch others, pieces = first ++ .found stretch :: others →
      Behind passed wanted (first.flatMap Piece.text))
    (behind : Behind passed wanted (pieces.flatMap Piece.text)) :
    Behind passed wanted (remains pieces) := by
  induction pieces using List.reverseRecOn with
  | nil => exact Text.behind_nil
  | append_singleton pieces piece ih =>
      have earlier : Behind passed wanted (pieces.flatMap Piece.text) →
          Behind passed wanted (remains pieces) := by
        refine ih fun first stretch others split => begins first stretch (others ++ [piece]) ?_
        rw [split, List.append_assoc, List.cons_append]
      unfold remains at earlier ⊢
      rw [List.flatMap_append, List.flatMap_singleton] at behind ⊢
      cases piece with
      | kept char => exact behind.append_congr earlier _
      | found stretch =>
          rw [Piece.replaced, List.append_nil]
          exact earlier (begins pieces stretch [] rfl)

end

/-- No match begins in the first text and ends in the second. -/
def Divides (pattern : Pattern) (before : Option Char) (front rest : Text) : Prop :=
  ∀ first left right behind, front = first ++ left → rest = right ++ behind → left ≠ [] →
    right ≠ [] → pattern (first.getLast?.or before) (left ++ right ++ behind) ≠
      some (left ++ right).length

def Spared (pattern : Pattern) (before : Option Char) (middle back : Text) : Prop :=
  ∀ first left, middle = first ++ left → left ≠ [] →
    pattern (first.getLast?.or before) (left ++ back) = none

private theorem piecesFrom_append (sound : pattern.Sound) {before : Option Char} {front rest : Text}
    (divides : pattern.Divides before front rest) :
    ∃ early, pattern.piecesFrom 0 before (front ++ rest) =
        early ++ pattern.piecesFrom 0 (front.getLast?.or before) rest ∧
      early.flatMap Piece.text = front := by
  induction size : front.length using Nat.strongRecOn generalizing before front with
  | ind size ih =>
      cases front with
      | nil => exact ⟨[], rfl, rfl⟩
      | cons char front =>
          cases here : pattern before (char :: front ++ rest) with
          | none =>
              have later : pattern.Divides (some char) front rest := by
                intro first left right behind split
                rw [← Text.getLast?_cons_or]
                exact divides (char :: first) left right behind (congrArg (char :: ·) split)
              obtain ⟨early, pieces, texts⟩ := ih front.length (size ▸ Nat.lt_succ_self _) later rfl
              refine ⟨.kept char :: early, ?_, congrArg (char :: ·) texts⟩
              rw [Text.getLast?_cons_or, List.cons_append, List.cons_append, ← pieces]
              exact piecesFrom_kept here
          | some length =>
              obtain ⟨stretch, behind, filled, split, rfl⟩ := sound.split here
              rcases List.append_eq_append_iff.mp split with
                ⟨more, rfl, same⟩ | ⟨more, same, rfl⟩
              · by_cases reached : more = []
                · subst reached
                  rw [List.append_nil] at here
                  rw [List.nil_append] at same
                  subst same
                  refine ⟨[.found (char :: front)], ?_, List.append_nil _⟩
                  rw [piecesFrom_found (List.cons_ne_nil _ _) here,
                    List.getLast?_eq_some_getLast (List.cons_ne_nil _ _)]
                  rfl
                · rw [split] at here
                  refine absurd here ?_
                  exact divides [] (char :: front) more behind rfl same (List.cons_ne_nil _ _) reached
              · have long := congrArg List.length same
                have positive := List.length_pos_iff.mpr filled
                rw [List.length_append] at long
                rw [same] at divides here ⊢
                have later : pattern.Divides stretch.getLast? more rest := by
                  intro first left right behind split
                  rw [← Text.getLast?_append_or filled]
                  exact divides (stretch ++ first) left right behind (by rw [split, List.append_assoc])
                obtain ⟨early, pieces, texts⟩ := ih more.length (by omega) later rfl
                refine ⟨.found stretch :: early, ?_, congrArg (stretch ++ ·) texts⟩
                rw [List.append_assoc] at here ⊢
                rw [piecesFrom_found filled here, pieces, Text.getLast?_append_or filled]
                rfl

theorem spared_cons_iff {before : Option Char} {char : Char} {middle back : Text} :
    pattern.Spared before (char :: middle) back ↔
      pattern before (char :: middle ++ back) = none ∧ pattern.Spared (some char) middle back := by
  constructor
  · intro spared
    refine ⟨spared [] (char :: middle) rfl (List.cons_ne_nil _ _), fun first left split => ?_⟩
    rw [← Text.getLast?_cons_or]
    exact spared (char :: first) left (congrArg (char :: ·) split)
  · rintro ⟨here, later⟩ first left split filled
    cases first with
    | nil => exact (List.nil_append left ▸ split) ▸ here
    | cons other first =>
        obtain ⟨rfl, inner⟩ := List.cons.inj split
        rw [Text.getLast?_cons_or]
        exact later first left inner filled

theorem Spared.absent_append {before : Option Char} {front rest : Text}
    (spared : pattern.Spared before front rest)
    (absent : pattern.Absent (front.getLast?.or before) rest) :
    pattern.Absent before (front ++ rest) := by
  induction front generalizing before with
  | nil => exact absent
  | cons char front ih =>
      obtain ⟨here, later⟩ := spared_cons_iff.mp spared
      rw [Text.getLast?_cons_or] at absent
      exact absent_cons_iff.mpr ⟨here, ih later absent⟩

theorem piecesFrom_spared {before : Option Char} {middle back : Text}
    (spared : pattern.Spared before middle back) :
    pattern.piecesFrom 0 before (middle ++ back) =
      middle.map .kept ++ pattern.piecesFrom 0 (middle.getLast?.or before) back := by
  induction middle generalizing before with
  | nil => rfl
  | cons char middle ih =>
      obtain ⟨here, later⟩ := spared_cons_iff.mp spared
      rw [Text.getLast?_cons_or, List.map_cons, List.cons_append, List.cons_append, ← ih later]
      exact piecesFrom_kept here

/-- A stretch stays that no match begins in or reaches into. On the way back through what stays in front
of it, that is met which was met in front of it, if it is met where the matches begin. -/
theorem remove_around (sound : pattern.Sound) {front middle back : Text}
    (divides : pattern.Divides none front (middle ++ back))
    (spared : pattern.Spared front.getLast? middle back) :
    ∃ left later, pattern.remove (front ++ (middle ++ back)) = left ++ (middle ++ later) ∧
      ∀ passed wanted, (∀ first stretch rest, front ++ (middle ++ back) = first ++ (stretch ++ rest) →
          pattern first.getLast? (stretch ++ rest) = some stretch.length →
            Behind passed wanted first) →
        Behind passed wanted front → Behind passed wanted left := by
  obtain ⟨early, pieces, texts⟩ := piecesFrom_append sound divides
  rw [Option.or_none, piecesFrom_spared spared] at pieces
  have kept : ∀ text : Text, (text.map Piece.kept).flatMap (Piece.replaced fun _ => []) = text := by
    intro text
    rw [List.flatMap_map]
    exact List.flatMap_singleton' text
  refine ⟨remains early, remains (pattern.piecesFrom 0 (middle.getLast?.or front.getLast?) back), ?_, ?_⟩
  · unfold remove replace Pattern.pieces
    rw [pieces]
    change remains (early ++ (middle.map Piece.kept ++ _)) = _
    unfold remains
    rw [List.flatMap_append, List.flatMap_append, kept]
  · intro passed wanted begins behind
    refine behind_kept (fun first stretch others split => ?_) (by rwa [texts])
    have cut := cut_pieces sound (front ++ (middle ++ back))
    rw [Pattern.pieces, pieces, split, List.append_assoc] at cut
    obtain ⟨rest, same, matched⟩ := cut.place
    rw [Option.or_none] at matched
    exact begins _ _ _ same matched

section
variable {passed wanted : Char → Bool}

private theorem split_newTokens {parts : List Part} {first later : List Token} {token : Token}
    (same : parts.flatMap (Part.newTokens fun _ => []) = first ++ token :: later) :
    ∃ early late, parts = early ++ .kept token :: late ∧
      early.flatMap (Part.newTokens fun _ => []) = first := by
  induction parts generalizing first with
  | nil => exact absurd same.symm (by simp)
  | cons part parts ih =>
      rw [List.flatMap_cons] at same
      cases part with
      | found stretch =>
          obtain ⟨early, late, rfl, rest⟩ := ih same
          exact ⟨.found stretch :: early, late, rfl, rest⟩
      | kept other =>
          cases first with
          | nil =>
              obtain ⟨rfl, _later⟩ := List.cons.inj same
              exact ⟨[], parts, rfl, rfl⟩
          | cons head first =>
              obtain ⟨rfl, behind⟩ := List.cons.inj same
              obtain ⟨early, late, rfl, rest⟩ := ih behind
              exact ⟨.kept other :: early, late, rfl, congrArg (other :: ·) rest⟩

/-- A word of what stays stood in the text, and what was met there on the way back is still met, if it
is met where the matches begin. -/
theorem behind_word_remove (apart : pattern.Apart) (keeps : pattern.KeepsStart fun _ => [])
    {text word : Text}
    (begins : ∀ first stretch rest, text = first ++ (stretch ++ rest) →
      pattern first.getLast? (stretch ++ rest) = some stretch.length → Behind passed wanted first)
    (stood : ∀ first later, tokens text = first ++ .word word :: later →
      Behind passed wanted (spell first))
    {first later : List Token} (stands : tokens (pattern.remove text) = first ++ .word word :: later) :
    Behind passed wanted (spell first) := by
  have respects : pattern.Respects (fun _ => []) text := ⟨keeps, fun _inside _found => nofun⟩
  obtain ⟨parts, parted, lexed, changed, cuts⟩ := tokens_replace respects apart
  obtain ⟨early, late, rfl, rfl⟩ := split_newTokens (changed.trans stands)
  have source : Behind passed wanted (early.flatMap Part.text) := by
    rw [← spell_partTokens]
    refine stood (early.flatMap Part.tokens) (late.flatMap Part.tokens) ?_
    rw [← lexed, List.flatMap_append, List.flatMap_cons]
    rfl
  have pieces : ∀ parts : List Part, (parts.flatMap Part.pieces).flatMap Piece.text =
      parts.flatMap Part.text := by
    intro parts
    rw [List.flatMap_assoc]
    refine List.flatMap_congr fun part _member => ?_
    cases part with
    | kept token =>
        rw [Part.pieces, List.flatMap_map]
        exact List.flatMap_singleton' token.text
    | found stretch => exact List.append_nil stretch
  rw [← flatMap_replaced]
  refine behind_kept (fun one stretch others split => ?_) (by rwa [pieces])
  have whole := cut_pieces apart.sound text
  rw [← cuts, List.flatMap_append, split, List.append_assoc, List.cons_append] at whole
  obtain ⟨rest, same, matched⟩ := whole.place
  rw [Option.or_none] at matched
  exact begins _ _ _ same matched

end

end Pattern
end ShaderBridge
