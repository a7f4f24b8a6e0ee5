import ShaderBridge.Proofs.Code.Identifier
import ShaderBridge.Proofs.Code.Repetition
import ShaderBridge.Proofs.Text.Removal
set_option autoImplicit false

/-! The names that a text declares with a vector type. A name is found right behind a type and white
space (`matched_iff`), no declaration reaches over a parenthesis or a bracket, and writing out the
constructor calls of a text leaves the names that it declares as they are (`declaredVectors_expandAfter`). -/

namespace ShaderBridge
namespace Code

open Text (Blank IsOneWord Trimmed startsWord)

/-- A vector type, white space and a name. -/
structure Declares (types : VectorTypes) (declaration name : Text) : Prop where
  shape : ∃ type size gap, (type, size) ∈ types ∧ Blank gap ∧ gap ≠ [] ∧
    declaration = type ++ (gap ++ name)
  named : isIdentifier name = true

section
variable {types : VectorTypes} (well : WellNamed types)

/-- The scan that follows the name of a type. -/
private def declarator : Scan :=
  Scan.someBlanks >=> Scan.identifier >=> Scan.notBefore (Scan.blanks >=> Scan.literal "(")

private theorem declarator_eq_some_iff {text rest : Text} :
    declarator text = some rest ↔
      ∃ gap name, Blank gap ∧ gap ≠ [] ∧ isIdentifier name = true ∧ text = gap ++ (name ++ rest) ∧
        startsWord rest = false ∧ ¬ LedBy '(' rest := by
  constructor
  · intro found
    obtain ⟨between, white, more⟩ := Scan.andThen_eq_some_iff.mp found
    obtain ⟨gap, filled, blank, rfl, _dark⟩ := Scan.oneOrMore_eq_some_iff.mp white
    obtain ⟨behind, named, last⟩ := Scan.andThen_eq_some_iff.mp more
    obtain ⟨name, one, start, rfl, apart⟩ := (reads_identifier _ _).mp named
    obtain ⟨rfl, uncalled⟩ := Scan.notBefore_eq_some_iff.mp last
    exact ⟨gap, name, blank, filled, isIdentifier_iff.mpr ⟨one, start⟩, rfl, apart,
      fun called => (ledBy_iff rfl).mp called uncalled⟩
  · rintro ⟨gap, name, blank, filled, named, rfl, apart, uncalled⟩
    obtain ⟨one, start⟩ := isIdentifier_iff.mp named
    have dark : (name ++ rest).head?.any isBlank = false := Text.dark_word_append one rest
    refine Scan.andThen_eq_some_iff.mpr
      ⟨name ++ rest, Scan.oneOrMore_eq_some_iff.mpr ⟨gap, filled, blank, rfl, dark⟩, ?_⟩
    refine Scan.andThen_eq_some_iff.mpr ⟨rest, (reads_identifier _ _).mpr ⟨name, one, start, rfl, apart⟩,
      Scan.notBefore_eq_some_iff.mpr ⟨rfl, ?_⟩⟩
    exact not_not.mp (mt (ledBy_iff rfl).mpr uncalled)

private theorem rest_unique {type gap name rest other space second tail : Text} (one : IsOneWord type)
    (another : IsOneWord other) (blank : Blank gap) (filled : gap ≠ []) (white : Blank space)
    (some : space ≠ []) (named : IsOneWord name) (called : IsOneWord second)
    (apart : startsWord rest = false) (alone : startsWord tail = false)
    (same : type ++ (gap ++ (name ++ rest)) = other ++ (space ++ (second ++ tail))) :
    rest = tail := by
  have read : ∀ {type gap name rest : Text}, IsOneWord type → Blank gap → gap ≠ [] →
      IsOneWord name → startsWord rest = false →
        (((type ++ (gap ++ (name ++ rest))).dropWhile isWord).dropWhile isBlank).dropWhile isWord =
          rest := by
    intro type gap name rest one blank filled named apart
    have drop : ∀ {inClass : Char → Bool} {stretch rest : Text},
        (∀ char ∈ stretch, inClass char = true) → rest.head?.any inClass = false →
          (stretch ++ rest).dropWhile inClass = rest :=
      fun each outside => Option.some.inj (Scan.zeroOrMore_eq_some_iff.mpr ⟨_, each, rfl, outside⟩)
    have outside : (gap ++ (name ++ rest)).head?.any isWord = false := by
      obtain ⟨char, gap, rfl⟩ := List.exists_cons_of_ne_nil filled
      exact isWord_of_isBlank (blank char List.mem_cons_self)
    have ends : rest.head?.any isWord = false := by
      cases rest with
      | nil => rfl
      | cons char rest => exact apart
    rw [drop one.2 outside, drop blank (Text.dark_word_append named rest), drop named.2 ends]
  rw [← read one blank filled named apart, ← read another white some called alone, same]

include well

/-- Where a declaration is found. -/
theorem matched_iff {before : Option Char} {text : Text} {length : Nat} :
    vectorDeclaration types before text = some length ↔
      before.any joinsName = false ∧ ∃ declaration name rest, text = declaration ++ rest ∧
        length = declaration.length ∧ Declares types declaration name ∧ startsWord rest = false ∧
          ¬ LedBy '(' rest := by
  have read : ∀ {type gap name rest : Text} {size : Nat}, (type, size) ∈ types → Blank gap → gap ≠ [] →
      isIdentifier name = true → startsWord rest = false → ¬ LedBy '(' rest →
        (Scan.literal type >=> declarator) (type ++ (gap ++ (name ++ rest))) = some rest :=
    fun _member blank filled named apart uncalled => Scan.andThen_eq_some_iff.mpr
      ⟨_, Scan.literal_eq_some_iff.mpr rfl,
        declarator_eq_some_iff.mpr ⟨_, _, blank, filled, named, rfl, apart, uncalled⟩⟩
  have cut : ∀ {entry : Nat × Text}, readVectorType types declarator text = some entry →
      ∃ type gap name, (type, entry.1) ∈ types ∧ Blank gap ∧ gap ≠ [] ∧ isIdentifier name = true ∧
        text = type ++ (gap ++ (name ++ entry.2)) ∧ startsWord entry.2 = false ∧
          ¬ LedBy '(' entry.2 := by
    intro entry found
    obtain ⟨type, member, scanned⟩ := readVectorType_eq_some found
    obtain ⟨between, stem, more⟩ := Scan.andThen_eq_some_iff.mp scanned
    obtain ⟨gap, name, blank, filled, named, rfl, apart, uncalled⟩ := declarator_eq_some_iff.mp more
    exact ⟨type, gap, name, member, blank, filled, named, Scan.literal_eq_some_iff.mp stem, apart,
      uncalled⟩
  unfold vectorDeclaration
  rw [Pattern.notAfter_eq_some_iff]
  refine and_congr_right fun _outside => ?_
  constructor
  · rintro ⟨rest, found, rfl⟩
    obtain ⟨⟨size, behind⟩, entry, same⟩ := Option.map_eq_some_iff.mp found
    obtain rfl : behind = rest := same
    obtain ⟨type, gap, name, member, blank, filled, named, rfl, apart, uncalled⟩ := cut entry
    refine ⟨type ++ (gap ++ name), name, behind, by simp, ?_,
      ⟨⟨type, size, gap, member, blank, filled, rfl⟩, named⟩, apart, uncalled⟩
    simp only [List.length_append]
    omega
  · rintro ⟨declaration, name, rest, rfl, rfl, ⟨⟨type, size, gap, member, blank, filled, rfl⟩, named⟩,
      apart, uncalled⟩
    have whole : type ++ (gap ++ name) ++ rest = type ++ (gap ++ (name ++ rest)) := by simp
    rw [whole] at cut ⊢
    obtain ⟨⟨count, behind⟩, found⟩ :=
      exists_readVectorType member (read member blank filled named apart uncalled)
    obtain ⟨other, space, second, known, white, some, called, same, alone, _uncalled⟩ := cut found
    obtain rfl : rest = behind := rest_unique (well.named _ member) (well.named _ known) blank filled
      white some (isIdentifier_iff.mp named).1 (isIdentifier_iff.mp called).1 apart alone same
    refine ⟨rest, congrArg (Option.map Prod.snd) found, ?_⟩
    simp only [List.length_append]
    omega

theorem sound_vectorDeclaration : (vectorDeclaration types).Sound := by
  intro before text length found
  obtain ⟨_outside, declaration, name, rest, rfl, rfl, ⟨⟨type, size, gap, member, _blank, filled, rfl⟩,
    _named⟩, _apart, _uncalled⟩ := (matched_iff well).mp found
  have positive := List.length_pos_iff.mpr filled
  simp only [List.length_append]
  omega

private theorem Declares.not_mem {declaration name : Text} (declares : Declares types declaration name)
    {mark : Char} (parts : Parts mark) : mark ∉ declaration := by
  obtain ⟨⟨type, size, gap, member, blank, _filled, rfl⟩, named⟩ := declares
  simp only [List.mem_append, not_or]
  refine ⟨fun letter => ?_, fun white => ?_, fun letter => ?_⟩
  · exact absurd (parts.1.symm.trans ((well.named _ member).2 mark letter)) nofun
  · exact absurd (parts.2.symm.trans (blank mark white)) nofun
  · exact absurd (parts.1.symm.trans ((isIdentifier_iff.mp named).1.2 mark letter)) nofun

private theorem split_declaration {declaration name front rest behind : Text} {mark : Char}
    (parts : Parts mark) (declares : Declares types declaration name)
    (same : front ++ mark :: rest = declaration ++ behind) :
    ∃ between, front = declaration ++ between ∧ behind = between ++ mark :: rest := by
  rcases List.append_eq_append_iff.mp same with ⟨between, rfl, opening⟩ | ⟨between, rfl, rfl⟩
  · cases between with
    | nil => exact ⟨[], by simp, opening.symm⟩
    | cons char between =>
        obtain ⟨rfl, _rest⟩ := List.cons.inj opening
        exact absurd (by simp) (declares.not_mem well parts)
  · exact ⟨between, rfl, rfl⟩

private theorem matched_of_matched {mark : Char} (parts : Parts mark) {before : Option Char}
    {front rest : Text} {length : Nat} (others : Text)
    (found : vectorDeclaration types before (front ++ mark :: rest) = some length) :
    vectorDeclaration types before (front ++ mark :: others) = some length := by
  obtain ⟨outside, declaration, name, behind, same, rfl, declares, apart, uncalled⟩ :=
    (matched_iff well).mp found
  obtain ⟨between, rfl, rfl⟩ := split_declaration well parts declares same
  have begins : startsWord (between ++ mark :: others) = startsWord (between ++ mark :: rest) := by
    cases between <;> rfl
  refine (matched_iff well).mpr ⟨outside, declaration, name, between ++ mark :: others,
    List.append_assoc _ _ _, rfl, declares, begins.trans apart, ?_⟩
  rwa [ledBy_append_iff parts.2, ← ledBy_append_iff parts.2 between rest]

private theorem matched_append_mark {mark : Char} (parts : Parts mark) (before : Option Char)
    (front rest : Text) :
    vectorDeclaration types before (front ++ mark :: rest) =
      vectorDeclaration types before (front ++ [mark]) :=
  Option.ext fun _length =>
    ⟨matched_of_matched well parts [], matched_of_matched well parts rest⟩

def declarationsAfter (types : VectorTypes) (before : Option Char) (text : Text) : List Text :=
  ((vectorDeclaration types).piecesFrom 0 before text).filterMap fun
    | .found text => some text
    | .kept _ => none

omit well in
private theorem declarationsAfter_kept {before : Option Char} {char : Char} {text : Text}
    (none : vectorDeclaration types before (char :: text) = none) :
    declarationsAfter types before (char :: text) = declarationsAfter types (some char) text := by
  unfold declarationsAfter
  rw [Pattern.piecesFrom_kept none]
  rfl

omit well in
private theorem declarationsAfter_found {before : Option Char} {declaration rest : Text}
    (filled : declaration ≠ [])
    (found : vectorDeclaration types before (declaration ++ rest) = some declaration.length) :
    declarationsAfter types before (declaration ++ rest) =
      declaration :: declarationsAfter types declaration.getLast? rest := by
  unfold declarationsAfter
  rw [Pattern.piecesFrom_found filled found]
  rfl

omit well in
theorem declarationsAfter_congr {before other : Option Char}
    (alike : before.any joinsName = other.any joinsName) (text : Text) :
    declarationsAfter types before text = declarationsAfter types other text := by
  have same : vectorDeclaration types before text = vectorDeclaration types other text := by
    unfold vectorDeclaration Scan.notAfter
    rw [alike]
    rfl
  unfold declarationsAfter
  cases text with
  | nil => rw [Pattern.piecesFrom, Pattern.piecesFrom, same]
  | cons char text => rw [Pattern.piecesFrom, Pattern.piecesFrom, same]

/-- No declaration begins with a mark. -/
theorem declarationsAfter_cons_mark {mark : Char} (apart : isWord mark = false) (before : Option Char)
    (text : Text) :
    declarationsAfter types before (mark :: text) = declarationsAfter types (some mark) text := by
  apply declarationsAfter_kept
  cases found : vectorDeclaration types before (mark :: text) with
  | none => rfl
  | some length =>
      obtain ⟨_outside, declaration, name, rest, split, _length, declares, _apart, _uncalled⟩ :=
        (matched_iff well).mp found
      obtain ⟨⟨type, size, gap, member, _blank, _filled, rfl⟩, _named⟩ := declares
      have one : IsOneWord type := well.named _ member
      have starts : startsWord (mark :: text) = true := by
        rw [split, List.append_assoc, Text.startsWord_append one.1, one.startsWord]
      exact absurd (apart.symm.trans starts) nofun

/-- A parting mark parts the declarations in front of it from those behind it. -/
theorem declarationsAfter_mark {mark : Char} (parts : Parts mark) (before : Option Char)
    (front rest : Text) :
    declarationsAfter types before (front ++ mark :: rest) =
      declarationsAfter types before (front ++ [mark]) ++ declarationsAfter types (some mark) rest := by
  induction size : front.length using Nat.strongRecOn generalizing before front with
  | ind size ih =>
      have alike := matched_append_mark well parts before front rest
      cases found : vectorDeclaration types before (front ++ mark :: rest) with
      | some length =>
          obtain ⟨_outside, declaration, name, behind, same, rfl, declares, _apart, _uncalled⟩ :=
            (matched_iff well).mp found
          obtain ⟨between, rfl, rfl⟩ := split_declaration well parts declares same
          have filled : declaration ≠ [] := by
            rintro rfl
            exact absurd (sound_vectorDeclaration well _ _ _ found).1 (by decide)
          have positive := List.length_pos_iff.mpr filled
          rw [found, List.append_assoc] at alike
          rw [List.append_assoc] at found ⊢
          rw [List.append_assoc, declarationsAfter_found filled found,
            declarationsAfter_found filled alike.symm, List.cons_append,
            ih between.length (by rw [← size, List.length_append]; omega) _ _ rfl]
      | none =>
          rw [found] at alike
          cases front with
          | nil =>
              have ends : declarationsAfter types (some mark) [] = [] := by
                cases final : vectorDeclaration types (some mark) [] with
                | none =>
                    unfold declarationsAfter
                    rw [Pattern.piecesFrom, final]
                    rfl
                | some length =>
                    obtain ⟨positive, short⟩ := sound_vectorDeclaration well _ _ _ final
                    exact absurd (positive.trans_le short) (by decide)
              rw [List.nil_append, List.nil_append] at *
              rw [declarationsAfter_kept found, declarationsAfter_kept alike.symm, ends,
                List.nil_append]
          | cons char front =>
              rw [List.cons_append] at alike found ⊢
              rw [List.cons_append, declarationsAfter_kept found, declarationsAfter_kept alike.symm,
                ih front.length (by rw [← size]; exact Nat.lt_succ_self _) _ _ rfl]

omit well in
private theorem not_infix_of_repeats {vectors : List Text} {size : Nat} {inner declaration name : Text}
    (repeats : Repeats vectors size inner) (declares : Declares types declaration name) :
    ¬ declaration <:+: inner.trim := by
  intro inside
  obtain ⟨⟨type, count, gap, member, blank, filled, rfl⟩, _named⟩ := declares
  obtain ⟨char, gap, rfl⟩ := List.exists_cons_of_ne_nil filled
  have white : isBlank char = true := blank char List.mem_cons_self
  have other : char ∉ (".+-" : Text) := by
    intro mark
    have dark : ∀ mark ∈ (".+-" : Text), isBlank mark = false := by decide
    exact absurd (white.symm.trans (dark char mark)) nofun
  have none := count_of_isSimpleScalar (isWord_of_isBlank white) other repeats.simple
  rw [Text.trim_eq_self (Text.trimmed_trim inner)] at none
  exact List.count_eq_zero.mp none (inside.subset (by simp))

private theorem Declares.trimmed {declaration name : Text}
    (declares : Declares types declaration name) : declaration ≠ [] ∧ Trimmed declaration := by
  obtain ⟨⟨type, size, gap, member, _blank, filled, rfl⟩, named⟩ := declares
  obtain ⟨one, _start⟩ := isIdentifier_iff.mp named
  refine ⟨by simp [filled], Text.dark_word_append (well.named _ member) _, ?_⟩
  rw [← List.append_assoc, List.getLast?_append_of_ne_nil _ one.1,
    List.getLast?_eq_some_getLast one.1]
  exact isBlank_of_isWord (one.2 _ (List.getLast_mem one.1))

private theorem declarationsAfter_eq_nil {text : Text}
    (absent : ∀ declaration name, Declares types declaration name → ¬ declaration <:+: text)
    (before : Option Char) : declarationsAfter types before text = [] := by
  have missed : (vectorDeclaration types).Absent before text := by
    intro front back split
    refine Option.eq_none_iff_forall_ne_some.mpr fun length found => ?_
    obtain ⟨_outside, declaration, name, rest, rfl, _length, declares, _apart, _uncalled⟩ :=
      (matched_iff well).mp found
    exact absent declaration name declares ⟨front, rest, by rw [split, List.append_assoc]⟩
  unfold declarationsAfter
  rw [Pattern.piecesFrom_of_absent missed, List.filterMap_map]
  exact List.filterMap_none _

section
variable {vectors : List Text} {size : Nat} {inner : Text} {closer : Char}
  (repeats : Repeats vectors size inner) (parts : Parts closer) (before : Option Char)
include repeats parts

private theorem declarationsAfter_inner : declarationsAfter types before (inner ++ [closer]) = [] := by
  refine declarationsAfter_eq_nil well (fun declaration name declares inside => ?_) before
  obtain ⟨filled, trimmed⟩ := declares.trimmed well
  rcases (Text.infix_append_cons_iff (declares.not_mem well parts)).mp inside with early | late
  · exact not_infix_of_repeats repeats declares (Text.infix_trim_of_infix filled trimmed early)
  · exact filled (List.infix_nil.mp late)

private theorem declarationsAfter_copies :
    declarationsAfter types before (copies size inner ++ [closer]) = [] := by
  refine declarationsAfter_eq_nil well (fun declaration name declares inside => ?_) before
  obtain ⟨filled, trimmed⟩ := declares.trimmed well
  have comma : ',' ∉ declaration := declares.not_mem well ⟨by decide, by decide⟩
  have reached : ∀ (count : Nat) (blanks : Text), Blank blanks →
      declaration <:+: blanks ++ Text.join ", " (List.replicate count inner.trim) →
        declaration <:+: inner.trim := by
    intro count
    have single : ∀ blanks : Text, Blank blanks → declaration <:+: blanks ++ inner.trim →
        declaration <:+: inner.trim := by
      intro blanks blank found
      have inner := Text.infix_trim_of_infix filled trimmed found
      rwa [Text.trim_blank_append blank, Text.trim_eq_self (Text.trimmed_trim _)] at inner
    induction count with
    | zero =>
        intro blanks blank found
        rw [show Text.join ", " (List.replicate 0 inner.trim) = [] from rfl, List.append_nil] at found
        have empty := Text.infix_trim_of_infix filled trimmed found
        rw [Text.trim_eq_nil_iff.mpr blank] at empty
        exact absurd (List.infix_nil.mp empty) filled
    | succ count ih =>
        intro blanks blank found
        cases count with
        | zero => exact single blanks blank (by simpa [Text.join] using found)
        | succ count =>
            rw [List.replicate_succ, List.replicate_succ, Text.join_cons_cons, ← List.append_assoc] at found
            rcases (Text.infix_append_cons_iff comma).mp found with early | late
            · exact single blanks blank early
            · exact ih [' '] (by decide) late
  rcases (Text.infix_append_cons_iff (declares.not_mem well parts)).mp inside with early | late
  · exact not_infix_of_repeats repeats declares (reached size [] (by decide) early)
  · exact filled (List.infix_nil.mp late)

end

/-- Writing out the constructor calls of a text leaves its declarations as they are. -/
theorem declarationsAfter_expandAfter {vectors : List Text} (before : Option Char) (text : Text) :
    declarationsAfter types before (expandAfter types vectors before text) =
      declarationsAfter types before text := by
  induction before, text using site_induction types vectors with
  | flat before text plain => rw [expandAfter_flat plain]
  | idle before flat rest plain idle ih =>
      rw [expandAfter_idle well plain idle, declarationsAfter_mark well parts_parenthesis, ih,
        ← declarationsAfter_mark well parts_parenthesis]
  | repeated before flat size inner closer rest plain opens closes repeats ih =>
      have parts := parts_of_isCloser closes
      rw [expandAfter_repeated well plain opens closes repeats,
        declarationsAfter_mark well parts_parenthesis before flat (copies size inner ++ _),
        declarationsAfter_mark well parts_parenthesis before flat (inner ++ _),
        declarationsAfter_mark well parts _ (copies size inner),
        declarationsAfter_mark well parts _ inner, ih, declarationsAfter_copies well repeats parts,
        declarationsAfter_inner well repeats parts]

theorem declaredVectors_expandVectorCalls (vectors : List Text) (text : Text) :
    declaredVectors types (expandVectorCalls types vectors text) = declaredVectors types text := by
  have same : declarationsAfter types none (expandAfter types vectors none text) =
      declarationsAfter types none text := declarationsAfter_expandAfter well none text
  exact congrArg (List.map _) same

omit well in
private theorem last_word {declaration name : Text} (declares : Declares types declaration name) :
    (declaration.reverse.takeWhile isWord).reverse = name := by
  obtain ⟨⟨type, size, gap, _member, blank, filled, rfl⟩, named⟩ := declares
  obtain ⟨one, _start⟩ := isIdentifier_iff.mp named
  have letters : ∀ char ∈ name.reverse, isWord char = true :=
    fun char member => one.2 char (List.mem_reverse.mp member)
  obtain ⟨char, rest, turned⟩ := List.exists_cons_of_ne_nil (mt List.reverse_eq_nil_iff.mp filled)
  have mark : isWord char = false := by
    apply isWord_of_isBlank
    exact blank char (List.mem_reverse.mp (turned ▸ List.mem_cons_self))
  rw [List.reverse_append, List.reverse_append, List.append_assoc,
    List.takeWhile_append_of_pos letters, turned, List.cons_append,
    List.takeWhile_cons_of_neg (Bool.eq_false_iff.mp mark), List.append_nil, List.reverse_reverse]

theorem exists_declares {text name : Text} (member : name ∈ declaredVectors types text) :
    ∃ front declaration rest, text = front ++ (declaration ++ rest) ∧
      Declares types declaration name := by
  obtain ⟨declaration, occurs, rfl⟩ := List.mem_map.mp member
  have cut := Pattern.cut_pieces (sound_vectorDeclaration well) text
  obtain ⟨early, late, split⟩ := List.append_of_mem (Pattern.mem_occurrences.mp occurs)
  rw [split] at cut
  obtain ⟨rest, same, matched⟩ := cut.place
  obtain ⟨_outside, found, name, behind, whole, long, declares, _apart, _uncalled⟩ :=
    (matched_iff well).mp matched
  obtain ⟨rfl, _rest⟩ := List.append_inj whole long
  exact ⟨_, declaration, rest, same, by rwa [last_word declares]⟩

/-- A vector type and white space end the text. -/
def EndsInType (types : VectorTypes) (text : Text) : Prop :=
  ∃ front type size gap, (type, size) ∈ types ∧ Blank gap ∧ gap ≠ [] ∧ text = front ++ (type ++ gap)

omit well in
private theorem eq_nil_of_outside {early word : Text} (letters : ∀ char ∈ word, isWord char = true)
    (outside : (early ++ word).getLast?.any isWord = false) : word = [] := by
  by_contra some
  rw [List.getLast?_append_of_ne_nil _ some, List.getLast?_eq_some_getLast some] at outside
  exact absurd ((letters _ (List.getLast_mem some)).symm.trans outside) nofun

private theorem endsInType_of_cut {declaration name left right : Text}
    (declares : Declares types declaration name) (split : declaration = left ++ right)
    (filled : left ≠ []) (outside : left.getLast?.any isWord = false)
    (begins : startsWord right = true) (first : Text) : EndsInType types (first ++ left) := by
  obtain ⟨⟨type, size, gap, member, blank, some, rfl⟩, named⟩ := declares
  have letters := (well.named _ member).2
  rcases List.append_eq_append_iff.mp split with ⟨more, rfl, inner⟩ | ⟨more, rfl, _right⟩
  · rcases List.append_eq_append_iff.mp inner with ⟨word, rfl, rfl⟩ | ⟨space, rfl, rfl⟩
    · have none : word = [] := by
        rw [← List.append_assoc] at outside
        refine eq_nil_of_outside ?_ outside
        exact fun char inside => (isIdentifier_iff.mp named).1.2 char (List.mem_append_left right inside)
      rw [none, List.append_nil]
      exact ⟨first, type, size, gap, member, blank, some, rfl⟩
    · cases space with
      | nil => exact ⟨first, type, size, more, member, by rwa [List.append_nil] at blank,
          by rwa [List.append_nil] at some, rfl⟩
      | cons char space =>
          have white : isBlank char = true := blank char (by simp)
          exact absurd ((isWord_of_isBlank white).symm.trans begins) nofun
  · refine absurd (eq_nil_of_outside ?_ (show ([] ++ left).getLast?.any isWord = false from outside))
      filled
    exact fun char inside => letters char (List.mem_append_left more inside)

theorem mem_declaredVectors_of_declares {front declaration name rest : Text}
    (declares : Declares types declaration name) (outside : front.getLast?.any joinsName = false)
    (apart : startsWord rest = false) (uncalled : ¬ LedBy '(' rest) (alone : ¬ EndsInType types front) :
    name ∈ declaredVectors types (front ++ (declaration ++ rest)) := by
  have matched : vectorDeclaration types (front.getLast?.or none) (declaration ++ rest) =
      some declaration.length := by
    rw [Option.or_none]
    exact (matched_iff well).mpr ⟨outside, declaration, name, rest, rfl, rfl, declares, apart, uncalled⟩
  have starts : startsWord (declaration ++ rest) = true := by
    obtain ⟨⟨type, size, gap, member, _blank, _filled, rfl⟩, _named⟩ := id declares
    have one : IsOneWord type := well.named _ member
    rw [List.append_assoc, Text.startsWord_append one.1, one.startsWord]
  have cut := Pattern.cut_pieces (sound_vectorDeclaration well) (front ++ (declaration ++ rest))
  obtain ⟨first, left, right, behind, rfl, same, reached, member, found⟩ :=
    cut.across rfl (by rw [matched]; exact nofun)
  have occurs := Pattern.mem_occurrences.mpr member
  by_cases filled : left = []
  · -- the match begins where the declaration does, so it is the declaration
    subst filled
    rw [List.append_nil] at matched
    rw [List.nil_append, ← same, matched] at found
    obtain ⟨rfl, _rest⟩ := List.append_inj same (Option.some.inj found)
    exact List.mem_map.mpr ⟨declaration, occurs, last_word declares⟩
  · obtain ⟨_outside, other, second, tail, whole, long, others, _apart, _uncalled⟩ :=
      (matched_iff well).mp found
    obtain ⟨rfl, _tail⟩ := List.append_inj whole long
    refine absurd (endsInType_of_cut well others rfl filled ?_ ?_ first) alone
    · rw [List.getLast?_append_of_ne_nil _ filled] at outside
      exact not_isWord_of_not_joinsName (by rwa [Option.or_none])
    · rw [same, Text.startsWord_append reached] at starts
      exact starts

end

structure Declarator where
  before : Text
  name : Text
  after : Text
  /-- Nothing, or an initializer with its equals sign. -/
  initializer : Text
  named : isIdentifier name = true
  spaced : Blank before ∧ Blank after
  initialized : initializer = [] ∨ initializer.head? = some '='

def Declarator.text (declarator : Declarator) : Text :=
  declarator.before ++ (declarator.name ++ (declarator.after ++ declarator.initializer))

/-- A declaration of one name or more with a vector type. -/
structure DeclarationList (types : VectorTypes) where
  typeName : Text
  size : Nat
  first : Declarator
  others : List Declarator
  known : (typeName, size) ∈ types
  apart : first.before ≠ []

namespace DeclarationList
variable {types : VectorTypes} (list : DeclarationList types)

def names : List Text := (list.first :: list.others).map Declarator.name

def text : Text :=
  list.typeName ++ (Text.join "," ((list.first :: list.others).map Declarator.text) ++ ";")

private theorem exists_mark (back : Text) : ∃ mark behind,
    list.text ++ back = list.typeName ++ (list.first.before ++ list.first.name) ++
      (list.first.after ++ mark :: behind) ∧ mark ∈ ("=,;" : Text) := by
  obtain ⟨mark, behind, follows, ends⟩ : ∃ mark behind,
      list.text ++ back = list.typeName ++ (list.first.text ++ mark :: behind) ∧
        mark ∈ (",;" : Text) := by
    unfold text
    cases list.others with
    | nil =>
        have single : Text.join "," [list.first.text] = list.first.text := List.append_nil _
        exact ⟨';', back, by rw [List.map_singleton, single]; simp, by decide⟩
    | cons next others =>
        rw [List.map_cons, List.map_cons, Text.join_cons_cons]
        exact ⟨',', Text.join "," (next.text :: others.map Declarator.text) ++ (";" ++ back), by simp,
          by decide⟩
  rw [follows]
  unfold Declarator.text
  rcases list.first.initialized with empty | equals
  · refine ⟨mark, behind, ?_, List.mem_cons_of_mem _ ends⟩
    rw [empty]
    simp
  · obtain ⟨value, split⟩ := List.head?_eq_some_iff.mp equals
    refine ⟨'=', value ++ mark :: behind, ?_, by decide⟩
    rw [split]
    simp

/-- The first name is found, unless a vector type and white space stand in front of the list. -/
theorem first_mem (well : WellNamed types) {front : Text} (outside : front.getLast?.any joinsName = false)
    (alone : ¬ EndsInType types front) (back : Text) :
    list.first.name ∈ declaredVectors types (front ++ (list.text ++ back)) := by
  have declares : Declares types (list.typeName ++ (list.first.before ++ list.first.name))
      list.first.name :=
    ⟨⟨list.typeName, list.size, list.first.before, list.known, list.first.spaced.1, list.apart, rfl⟩,
      list.first.named⟩
  obtain ⟨mark, behind, follows, ends⟩ := list.exists_mark back
  have marks : ∀ mark ∈ ("=,;" : Text), isWord mark = false ∧ isBlank mark = false ∧ mark ≠ '(' := by
    decide
  obtain ⟨other, dark, closed⟩ := marks mark ends
  have white := list.first.spaced.2
  rw [follows]
  refine mem_declaredVectors_of_declares well declares outside ?_ ?_ alone
  · cases after : list.first.after with
    | nil => exact other
    | cons char rest =>
        rw [after] at white
        exact isWord_of_isBlank (white char List.mem_cons_self)
  · rintro ⟨gap, rest, blank, same⟩
    have drop : ∀ {blanks rest : Text} {char : Char}, Blank blanks → isBlank char = false →
        (blanks ++ char :: rest).dropWhile isBlank = char :: rest := fun blank dark =>
      Option.some.inj (Scan.zeroOrMore_eq_some_iff.mpr ⟨_, blank, rfl, dark⟩)
    have left : (list.first.after ++ mark :: behind).dropWhile isBlank = mark :: behind :=
      drop white dark
    rw [same, drop blank (by decide)] at left
    exact closed (List.cons.inj left).1.symm

end DeclarationList

end Code
end ShaderBridge
