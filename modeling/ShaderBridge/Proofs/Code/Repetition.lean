import ShaderBridge.Proofs.Code.CallSite
set_option autoImplicit false

/-! The written-out form of a text. It differs from the text at the sites of the calls that repeat a
scalar, at all of them and nowhere else (`exists_stretches`), and it is written out already
(`expandAfter_expandAfter`). -/

namespace ShaderBridge
namespace Code

open Text (Blank IsOneWord)

/-- The site of a constructor call that repeats a scalar: the text up to and including its
parenthesis, the text inside, and the text from the closing bracket on. -/
structure Site (types : VectorTypes) (vectors : List Text) (before : Option Char) (size : Nat)
    (opened inner closed : Text) : Prop where
  opens : Opens types before size opened
  closes : closer? ('(' :: (inner ++ closed)) = some (inner.length + 1)
  repeats : Repeats vectors size inner

/-- A part of a text: one that is kept, or the argument of a call that is repeated. -/
inductive Stretch where
  | kept (text : Text)
  | repeated (size : Nat) (inner : Text)

namespace Stretch

def text : Stretch → Text
  | kept text => text
  | repeated _ inner => inner

def written : Stretch → Text
  | kept text => text
  | repeated size inner => copies size inner

end Stretch

section
variable {types : VectorTypes} (well : WellNamed types) {vectors : List Text}

theorem Opens.exists_concat {before : Option Char} {size : Nat} {text : Text}
    (opens : Opens types before size text) : ∃ front, text = front ++ ['('] := by
  obtain ⟨front, name, gap, _member, _blank, _apart, rfl⟩ := opens
  exact ⟨front ++ (name ++ gap), by simp⟩

private theorem split_opened {before : Option Char} {size : Nat} {flat rest opened tail : Text}
    (plain : '(' ∉ flat) (opens : Opens types before size opened)
    (same : flat ++ '(' :: rest = opened ++ tail) :
    ∃ later, opened = flat ++ '(' :: later ∧ rest = later ++ tail := by
  obtain ⟨front, rfl⟩ := opens.exists_concat
  obtain ⟨first, later, split, absent⟩ :=
    List.eq_append_cons_of_mem (show '(' ∈ front ++ ['('] from by simp)
  rw [split, List.append_assoc, List.cons_append] at same
  obtain ⟨rfl, rfl⟩ := Text.append_cons_cancel plain absent same
  exact ⟨later, split, rfl⟩

theorem exists_closer {inner closed : Text}
    (closes : closer? ('(' :: (inner ++ closed)) = some (inner.length + 1)) :
    ∃ closer behind, closed = closer :: behind ∧ isCloser closer = true := by
  obtain ⟨body, rest, same, long, shut⟩ := closer?_eq_some rfl closes
  obtain ⟨_inner, rfl⟩ := List.append_inj same (Nat.succ_injective long)
  cases closed with
  | nil => cases shut
  | cons closer behind => exact ⟨closer, behind, rfl, shut⟩

theorem not_site_of_flat {before : Option Char} {size : Nat} {opened inner closed : Text}
    (plain : '(' ∉ opened ++ (inner ++ closed)) : ¬ Site types vectors before size opened inner closed := by
  intro site
  obtain ⟨front, rfl⟩ := site.opens.exists_concat
  exact plain (by simp)

include well

private theorem site_append_iff {before : Option Char} {mark : Char} (parts : Parts mark) (front : Text)
    {size : Nat} {opened inner closed : Text} (filled : opened ≠ []) :
    Site types vectors before size (front ++ mark :: opened) inner closed ↔
      Site types vectors (some mark) size opened inner closed := by
  have opens : Opens types before size (front ++ mark :: opened) ↔ Opens types (some mark) size opened :=
    opens_append_iff well parts front filled
  exact ⟨fun site => ⟨opens.mp site.opens, site.closes, site.repeats⟩,
    fun site => ⟨opens.mpr site.opens, site.closes, site.repeats⟩⟩

/-- The sites behind an idle parenthesis are all there are. -/
theorem site_idle_iff {before : Option Char} {flat rest opened inner closed : Text} {size : Nat}
    (plain : '(' ∉ flat) (idle : Idle types vectors before flat rest) :
    flat ++ '(' :: rest = opened ++ (inner ++ closed) ∧
        Site types vectors before size opened inner closed ↔
      ∃ later, opened = flat ++ '(' :: later ∧ rest = later ++ (inner ++ closed) ∧
        Site types vectors (some '(') size later inner closed := by
  constructor
  · rintro ⟨same, site⟩
    obtain ⟨later, rfl, rfl⟩ := split_opened plain site.opens same
    refine ⟨later, rfl, rfl, (site_append_iff well parts_parenthesis flat ?_).mp site⟩
    rintro rfl
    obtain ⟨closer, behind, rfl, closes⟩ := exists_closer site.closes
    have none := idle size site.opens
    rw [List.nil_append, repeatedArgument?_of_repeats site.repeats closes] at none
    cases none
  · rintro ⟨later, rfl, rfl, site⟩
    obtain ⟨front, rfl⟩ := site.opens.exists_concat
    refine ⟨by simp, (site_append_iff well parts_parenthesis flat ?_).mpr site⟩
    exact List.append_ne_nil_of_right_ne_nil front (List.cons_ne_nil _ _)

/-- Where the first parenthesis begins a site, the other sites lie behind the bracket that closes it. -/
theorem site_repeated_iff {before : Option Char} {flat inner rest opened argument closed : Text}
    {size count : Nat} {closer : Char} (plain : '(' ∉ flat)
    (opens : Opens types before count (flat ++ ['('])) (closes : isCloser closer = true)
    (repeats : Repeats vectors count inner) :
    flat ++ '(' :: (inner ++ closer :: rest) = opened ++ (argument ++ closed) ∧
        Site types vectors before size opened argument closed ↔
      (size = count ∧ opened = flat ++ ['('] ∧ argument = inner ∧ closed = closer :: rest) ∨
        ∃ later, opened = flat ++ '(' :: (inner ++ closer :: later) ∧
          rest = later ++ (argument ++ closed) ∧
            Site types vectors (some closer) size later argument closed := by
  have parts := parts_of_isCloser closes
  have other := ne_parenthesis_of_isCloser closes
  have absent := repeats.not_mem parts_parenthesis (by decide)
  have shut := repeats.closer? closes rest
  constructor
  · rintro ⟨same, site⟩
    obtain ⟨later, rfl, inside⟩ := split_opened plain site.opens same
    by_cases first : later = []
    · subst first
      rw [List.nil_append] at inside
      have lengths := site.closes
      rw [← inside, shut] at lengths
      obtain ⟨rfl, rfl⟩ := List.append_inj inside (Nat.succ_injective (Option.some.inj lengths))
      exact .inl ⟨opens_unique well site.opens opens, rfl, rfl, rfl⟩
    · have behind := (site_append_iff well parts_parenthesis flat first).mp site
      obtain ⟨front, rfl⟩ := behind.opens.exists_concat
      rw [List.append_cons] at inside
      rcases List.append_eq_append_iff.mp inside with ⟨more, split, rfl⟩ | ⟨more, split, _closed⟩
      · have filled : more ≠ [] := by
          rintro rfl
          rw [List.append_nil] at split
          obtain ⟨_front, equal⟩ := List.append_inj' split rfl
          exact other (List.singleton_injective equal).symm
        rw [split, List.append_assoc, List.singleton_append] at behind ⊢
        exact .inr ⟨more, rfl, rfl, (site_append_iff well parts inner filled).mp behind⟩
      · have member : '(' ∈ inner ++ [closer] := split ▸ by simp
        rcases List.mem_append.mp member with early | last
        · exact absurd early absent
        · exact absurd (List.mem_singleton.mp last).symm other
  · rintro (⟨rfl, rfl, rfl, rfl⟩ | ⟨later, rfl, rfl, site⟩)
    · exact ⟨by simp, opens, shut, repeats⟩
    · obtain ⟨front, rfl⟩ := site.opens.exists_concat
      have filled : front ++ ['('] ≠ [] :=
        List.append_ne_nil_of_right_ne_nil front (List.cons_ne_nil _ _)
      refine ⟨by simp, (site_append_iff well parts_parenthesis flat (by simp)).mpr ?_⟩
      exact (site_append_iff well parts inner filled).mpr site

/-- The argument of a site stands among the stretches, between those of the text in front of it and
those of the text behind. -/
def Stands (stretches : List Stretch) (size : Nat) (opened inner closed : Text) : Prop :=
  ∃ early late, stretches = early ++ .repeated size inner :: late ∧
    early.flatMap Stretch.text = opened ∧ late.flatMap Stretch.text = closed

omit well in
theorem stands_kept_iff {text opened inner closed : Text} {stretches : List Stretch} {size : Nat} :
    Stands (.kept text :: stretches) size opened inner closed ↔
      ∃ later, opened = text ++ later ∧ Stands stretches size later inner closed := by
  constructor
  · rintro ⟨early, late, split, rfl, rfl⟩
    cases early with
    | nil => cases split
    | cons first early =>
        obtain ⟨rfl, rest⟩ := List.cons.inj split
        exact ⟨early.flatMap Stretch.text, rfl, early, late, rest, rfl, rfl⟩
  · rintro ⟨later, rfl, early, late, rfl, rfl, rfl⟩
    exact ⟨.kept text :: early, late, rfl, rfl, rfl⟩

omit well in
theorem stands_repeated_iff {text opened inner closed : Text} {stretches : List Stretch}
    {size count : Nat} :
    Stands (.repeated count text :: stretches) size opened inner closed ↔
      (size = count ∧ opened = [] ∧ inner = text ∧ closed = stretches.flatMap Stretch.text) ∨
        ∃ later, opened = text ++ later ∧ Stands stretches size later inner closed := by
  constructor
  · rintro ⟨early, late, split, rfl, rfl⟩
    cases early with
    | nil =>
        cases split
        exact .inl ⟨rfl, rfl, rfl, rfl⟩
    | cons first early =>
        obtain ⟨rfl, rest⟩ := List.cons.inj split
        exact .inr ⟨early.flatMap Stretch.text, rfl, early, late, rest, rfl, rfl⟩
  · rintro (⟨rfl, rfl, rfl, rfl⟩ | ⟨later, rfl, early, late, rfl, rfl, rfl⟩)
    · exact ⟨[], stretches, rfl, rfl, rfl⟩
    · exact ⟨.repeated count text :: early, late, rfl, rfl, rfl⟩

omit well in
theorem not_stands_nil {opened inner closed : Text} {size : Nat} :
    ¬ Stands [] size opened inner closed := by
  rintro ⟨early, late, split, _opened, _closed⟩
  exact absurd split.symm (List.append_ne_nil_of_right_ne_nil early (List.cons_ne_nil _ _))

/-- The written-out form of a text repeats the arguments of its sites, of all of them, and keeps
everything else. -/
theorem exists_stretches (before : Option Char) (text : Text) :
    ∃ stretches : List Stretch, stretches.flatMap Stretch.text = text ∧
      stretches.flatMap Stretch.written = expandAfter types vectors before text ∧
        ∀ size opened inner closed, Stands stretches size opened inner closed ↔
          text = opened ++ (inner ++ closed) ∧ Site types vectors before size opened inner closed := by
  induction before, text using site_induction types vectors with
  | flat before text plain =>
      refine ⟨[.kept text], List.append_nil text, ?_, ?_⟩
      · rw [expandAfter_flat plain]
        exact List.append_nil text
      · intro size opened inner closed
        constructor
        · intro stands
          obtain ⟨later, _opened, none⟩ := stands_kept_iff.mp stands
          exact absurd none not_stands_nil
        · rintro ⟨rfl, site⟩
          exact absurd site (not_site_of_flat plain)
  | idle before flat rest plain idle ih =>
      obtain ⟨stretches, texts, written, stands⟩ := ih
      refine ⟨.kept (flat ++ ['(']) :: stretches, ?_, ?_, ?_⟩
      · rw [List.flatMap_cons, texts]
        exact List.append_assoc _ _ _
      · rw [List.flatMap_cons, written, expandAfter_idle well plain idle]
        exact List.append_assoc _ _ _
      · intro size opened inner closed
        rw [site_idle_iff well plain idle, stands_kept_iff]
        simp only [stands, List.append_assoc, List.singleton_append]
  | repeated before flat count inner closer rest plain opens closes repeats ih =>
      obtain ⟨stretches, texts, written, stands⟩ := ih
      refine ⟨.kept (flat ++ ['(']) :: .repeated count inner :: .kept [closer] :: stretches,
        ?_, ?_, ?_⟩
      · simp only [List.flatMap_cons, texts, Stretch.text, List.append_assoc, List.singleton_append]
      · rw [expandAfter_repeated well plain opens closes repeats]
        simp only [List.flatMap_cons, written, Stretch.written, List.append_assoc,
          List.singleton_append]
      · intro size opened argument closed
        have shut : (Stretch.kept [closer] :: stretches).flatMap Stretch.text = closer :: rest := by
          rw [List.flatMap_cons, texts]
          rfl
        rw [site_repeated_iff well plain opens closes repeats, stands_kept_iff]
        simp only [stands_repeated_iff, stands_kept_iff, stands, shut]
        constructor
        · rintro ⟨_, rfl, ⟨rfl, rfl, rfl, rfl⟩ | ⟨_, rfl, later, rfl, site⟩⟩
          · exact .inl ⟨rfl, List.append_nil _, rfl, rfl⟩
          · exact .inr ⟨later, by simp, site⟩
        · rintro (⟨rfl, rfl, rfl, rfl⟩ | ⟨later, rfl, site⟩)
          · exact ⟨[], (List.append_nil _).symm, .inl ⟨rfl, rfl, rfl, rfl⟩⟩
          · exact ⟨inner ++ closer :: later, by simp, .inr ⟨closer :: later, rfl, later, rfl, site⟩⟩

private theorem exists_expandAfter_append {before : Option Char} {flat rest : Text} (plain : '(' ∉ flat) :
    ∃ more, expandAfter types vectors before (flat ++ '(' :: rest) = flat ++ '(' :: more := by
  rcases idle_or_repeats types vectors before flat rest with
    idle | ⟨size, inner, closer, behind, rfl, closes, opens, repeats⟩
  · exact ⟨_, expandAfter_idle well plain idle⟩
  · exact ⟨_, expandAfter_repeated well plain opens closes repeats⟩

private theorem repeatedArgument?_expandAfter {known : List Text} (more : vectors ⊆ known) {size : Nat}
    {before : Option Char} {text : Text} (none : repeatedArgument? vectors size text = none) :
    repeatedArgument? known size (expandAfter types vectors before text) = .none := by
  refine Option.eq_none_iff_forall_ne_some.mpr fun (argument, closing) found => ?_
  obtain ⟨inner, same, _argument, closes, repeats⟩ := repeatedArgument?_eq_some_iff.mp found
  have fewer : Repeats vectors size inner :=
    ⟨repeats.several, repeats.simple, fun member => repeats.scalar (more member)⟩
  cases closing with
  | nil => cases closes
  | cons closer behind =>
      have other := ne_parenthesis_of_isCloser closes
      have begins : inner ++ [closer] <+: text := by
        by_cases opening : '(' ∈ text
        · obtain ⟨flat, rest, rfl, plain⟩ := List.eq_append_cons_of_mem opening
          obtain ⟨later, written⟩ : ∃ more,
              expandAfter types vectors before (flat ++ '(' :: rest) = flat ++ '(' :: more :=
            exists_expandAfter_append well plain
          have absent : '(' ∉ inner ++ [closer] := by
            simp only [List.mem_append, List.mem_singleton, not_or]
            exact ⟨repeats.not_mem parts_parenthesis (by decide), fun equal => other equal.symm⟩
          rw [written, List.append_cons inner] at same
          rcases List.append_eq_append_iff.mp same with ⟨between, reached, tail⟩ | ⟨between, rfl, _tail⟩
          · cases between with
            | nil => exact ⟨'(' :: rest, by rw [reached, List.append_nil]⟩
            | cons char between =>
                obtain ⟨rfl, _tail⟩ := List.cons.inj tail
                exact absurd (reached ▸ by simp) absent
          · exact ⟨between ++ '(' :: rest, (List.append_assoc _ _ _).symm⟩
        · rw [expandAfter_flat opening] at same
          exact ⟨behind, by rw [same]; simp⟩
      obtain ⟨rest, rfl⟩ := begins
      rw [List.append_assoc, List.singleton_append, repeatedArgument?_of_repeats fewer closes] at none
      cases none

omit well in
private theorem closer?_copies {count : Nat} {inner : Text} (repeats : Repeats vectors count inner)
    {closer : Char} (closes : isCloser closer = true) (rest : Text) :
    closer? ('(' :: (copies count inner ++ closer :: rest)) =
      some ((copies count inner).length + 1) := by
  have marks : ∀ mark ∈ ("([{)]}" : Text), Parts mark ∧ mark ∉ (",.+-" : Text) := by
    unfold Parts
    decide
  have nested : Nested [] (copies count inner) := by
    apply nested_of_flat
    intro char member
    obtain ⟨opens, shuts⟩ := not_bracket_of_not_mem fun bracket =>
      not_mem_copies repeats (marks char bracket).1 (marks char bracket).2 member
    exact ⟨opens, shuts, List.not_mem_nil⟩
  have slash : '/' ∉ copies count inner :=
    not_mem_copies repeats ⟨by decide, by decide⟩ (by decide)
  exact closer?_of_nested nested (uncommented_of_not_mem slash) closes

omit well in
private theorem not_repeats_copies {known : List Text} {count size : Nat} {inner : Text}
    (repeats : Repeats vectors count inner) : ¬ Repeats known size (copies count inner) := by
  intro again
  have absent : ',' ∉ copies count inner := again.not_mem ⟨by decide, by decide⟩ (by decide)
  have counted := List.count_eq_zero.mpr absent
  have single : (", " : Text).count ',' = 1 := by decide
  have several := repeats.several
  unfold copies at counted
  rw [Text.count_join, List.length_replicate, single] at counted
  omega

omit well in
theorem repeatedArgument?_copies {known : List Text} {count size : Nat} {inner : Text}
    (repeats : Repeats vectors count inner) {closer : Char} (closes : isCloser closer = true)
    (rest : Text) : repeatedArgument? known size (copies count inner ++ closer :: rest) = none := by
  refine Option.eq_none_iff_forall_ne_some.mpr fun (argument, closing) found => ?_
  obtain ⟨other, same, _argument, shuts, again⟩ := repeatedArgument?_eq_some_iff.mp found
  have lengths := closer?_copies repeats closes rest
  cases closing with
  | nil => cases shuts
  | cons mark behind =>
      rw [same, again.closer? shuts] at lengths
      obtain ⟨equal, _rest⟩ := List.append_inj same (Nat.succ_injective (Option.some.inj lengths)).symm
      exact not_repeats_copies repeats (equal ▸ again)

/-- What is written out stays as it is, also when more names are known to be vectors. -/
theorem expandAfter_expandAfter {known : List Text} (more : vectors ⊆ known) (before : Option Char)
    (text : Text) :
    expandAfter types known before (expandAfter types vectors before text) =
      expandAfter types vectors before text := by
  induction before, text using site_induction types vectors with
  | flat before text plain => rw [expandAfter_flat plain, expandAfter_flat plain]
  | idle before flat rest plain idle ih =>
      rw [expandAfter_idle well plain idle, expandAfter_idle well plain ?_, ih]
      intro size opens
      exact repeatedArgument?_expandAfter well more (idle size opens)
  | repeated before flat count inner closer rest plain opens closes repeats ih =>
      have parts := parts_of_isCloser closes
      have other := ne_parenthesis_of_isCloser closes
      have absent := not_mem_copies repeats parts_parenthesis (by decide)
      rw [expandAfter_repeated well plain opens closes repeats, expandAfter_idle well plain ?_,
        expandAfter_mark well parts other absent, ih]
      intro size _opens
      exact repeatedArgument?_copies repeats closes _

/-- What no parenthesis stands in, up to a bracket that closes, reaches over no opening. -/
private theorem idle_append {before : Option Char} {flat rest name gap more : Text} {size : Nat}
    (member : (name, size) ∈ types) (blank : Blank gap) (idle : Idle types vectors before flat rest) :
    Idle types vectors before flat (rest ++ (name ++ (gap ++ '(' :: more))) := by
  intro count opens
  refine Option.eq_none_iff_forall_ne_some.mpr fun (argument, closing) found => ?_
  obtain ⟨inner, same, _argument, closes, repeats⟩ := repeatedArgument?_eq_some_iff.mp found
  have none := idle count opens
  cases closing with
  | nil => cases closes
  | cons closer behind =>
      have parts := parts_of_isCloser closes
      have other := ne_parenthesis_of_isCloser closes
      have absent : '(' ∉ inner ++ [closer] := by
        simp only [List.mem_append, List.mem_singleton, not_or]
        exact ⟨repeats.not_mem parts_parenthesis (by decide), fun equal => other equal.symm⟩
      rw [List.append_cons inner] at same
      rcases List.append_eq_append_iff.mp same with ⟨between, reached, tail⟩ | ⟨between, rfl, _tail⟩
      · rcases List.eq_nil_or_concat' between with rfl | ⟨between, mark, rfl⟩
        · rw [List.append_nil] at reached
          rw [← reached, repeatedArgument?_of_repeats repeats closes] at none
          cases none
        · -- the bracket would stand in the name or in the white space behind it
          rw [← List.append_assoc] at reached
          obtain ⟨rfl, equal⟩ := List.append_inj' reached rfl
          obtain rfl : closer = mark := List.singleton_injective equal
          refine absurd ?_ (parts.not_mem_opening (well.named _ member) blank)
          rw [← List.append_assoc name] at tail
          rcases List.append_eq_append_iff.mp tail with ⟨further, split, opening⟩ | ⟨further, split, _behind⟩
          · cases further with
            | nil =>
                rw [List.append_nil] at split
                exact split ▸ by simp
            | cons char further =>
                obtain ⟨rfl, _behind⟩ := List.cons.inj opening
                refine absurd ?_ absent
                rw [List.append_assoc, split]
                simp
          · exact split ▸ by simp
      · rw [List.append_assoc, List.singleton_append, repeatedArgument?_of_repeats repeats closes]
          at none
        cases none

/-- What stands in front of the opening of a call is written out by itself. -/
theorem expandAfter_append_opening {before : Option Char} {front name gap : Text} {size : Nat}
    (member : (name, size) ∈ types) (blank : Blank gap)
    (apart : (front.getLast?.or before).any joinsName = false) (rest : Text) :
    expandAfter types vectors before (front ++ (name ++ (gap ++ '(' :: rest))) =
      expandAfter types vectors before front ++
        expandAfter types vectors (front.getLast?.or before) (name ++ (gap ++ '(' :: rest)) := by
  have absent := parts_parenthesis.not_mem_opening (well.named _ member) blank
  induction before, front using site_induction types vectors with
  | flat before front plain =>
      have opens : Opens types (front.getLast?.or before) size (name ++ gap ++ ['(']) :=
        ⟨[], name, gap, member, blank, apart, List.append_assoc _ _ _⟩
      have longer : Opens types before size (front ++ (name ++ gap) ++ ['(']) :=
        ⟨front, name, gap, member, blank, apart, by simp⟩
      have outside : '(' ∉ front ++ (name ++ gap) :=
        fun inside => (List.mem_append.mp inside).elim plain absent
      have whole : front ++ (name ++ (gap ++ '(' :: rest)) =
          front ++ (name ++ gap) ++ '(' :: rest := by
        simp
      rw [whole, ← List.append_assoc name, expandAfter_flat plain]
      rcases idle_or_repeats types vectors before (front ++ (name ++ gap)) rest with
        idle | ⟨count, inner, closer, behind, rfl, closes, again, repeats⟩
      · have still : Idle types vectors (front.getLast?.or before) (name ++ gap) rest := by
          intro count other
          rw [opens_unique well other opens]
          exact idle size longer
        rw [expandAfter_idle well outside idle, expandAfter_idle well absent still, List.append_assoc]
      · obtain rfl := opens_unique well again longer
        rw [expandAfter_repeated well outside longer closes repeats,
          expandAfter_repeated well absent opens closes repeats, List.append_assoc]
  | idle before flat behind plain idle ih =>
      rw [Text.getLast?_append_cons_or] at apart ⊢
      rw [List.append_assoc, List.cons_append, expandAfter_idle well plain idle,
        expandAfter_idle well plain (idle_append well member blank idle), ih apart]
      simp
  | repeated before flat count inner closer behind plain opens closes repeats ih =>
      have last : (flat ++ '(' :: (inner ++ closer :: behind)).getLast?.or before =
          behind.getLast?.or (some closer) := by
        rw [Text.getLast?_append_cons_or, Text.getLast?_append_cons_or]
      rw [last] at apart ⊢
      rw [List.append_assoc, List.cons_append, List.append_assoc, List.cons_append,
        expandAfter_repeated well plain opens closes repeats,
        expandAfter_repeated well plain opens closes repeats, ih apart]
      simp

end

/-- A constructor call in a text, its parts and what stands around it. -/
structure Call (types : VectorTypes) where
  front : Text
  typeName : Text
  size : Nat
  gap : Text
  inner : Text
  /-- The text from the closing bracket on. -/
  closed : Text
  known : (typeName, size) ∈ types
  apart : front.getLast?.any joinsName = false
  blank : Blank gap
  closes : closer? ('(' :: (inner ++ closed)) = some (inner.length + 1)

namespace Call
variable {types : VectorTypes} (call : Call types)

def around (front inner closed : Text) : Text :=
  front ++ (call.typeName ++ (call.gap ++ '(' :: (inner ++ closed)))

/-- The text in which the call stands. -/
def code : Text := call.around call.front call.inner call.closed

/-- The text with the call as it is, and with all others written out. -/
def kept (vectors : List Text) : Text :=
  call.around (expandVectorCalls types vectors call.front) call.inner
    (expandVectorCalls types vectors call.closed)

def broadcast (vectors : List Text) : Text :=
  call.around (expandVectorCalls types vectors call.front) (copies call.size call.inner)
    (expandVectorCalls types vectors call.closed)

variable (well : WellNamed types) {vectors : List Text}
include well

omit well in
private theorem opens :
    Opens types (call.front.getLast?.or none) call.size (call.typeName ++ call.gap ++ ['(']) := by
  refine ⟨[], call.typeName, call.gap, call.known, call.blank, ?_, List.append_assoc _ _ _⟩
  rw [List.getLast?_nil, Option.none_or, Option.or_none]
  exact call.apart

private theorem expand_code :
    expandVectorCalls types vectors call.code =
      expandVectorCalls types vectors call.front ++
        expandAfter types vectors (call.front.getLast?.or none)
          (call.typeName ++ call.gap ++ '(' :: (call.inner ++ call.closed)) := by
  have apart : (call.front.getLast?.or none).any joinsName = false := by
    rw [Option.or_none]
    exact call.apart
  rw [List.append_assoc]
  exact expandAfter_append_opening well call.known call.blank apart _

private theorem expand_closed {closer : Char} {behind : Text} (closes : isCloser closer = true) :
    expandVectorCalls types vectors (closer :: behind) =
      closer :: expandAfter types vectors (some closer) behind := by
  have other := ne_parenthesis_of_isCloser closes
  exact expandAfter_mark well (parts_of_isCloser closes) other List.not_mem_nil

theorem expand_of_repeats (repeats : Repeats vectors call.size call.inner) :
    expandVectorCalls types vectors call.code = call.broadcast vectors := by
  have absent := parts_parenthesis.not_mem_opening (well.named _ call.known) call.blank
  obtain ⟨closer, behind, closed, closes⟩ := exists_closer call.closes
  rw [call.expand_code well, closed,
    expandAfter_repeated well absent call.opens closes repeats]
  unfold broadcast around
  rw [closed, expand_closed well closes, List.append_assoc]

theorem expand_of_not_repeats (plain : '(' ∉ call.inner)
    (stays : ¬ Repeats vectors call.size call.inner) :
    expandVectorCalls types vectors call.code = call.kept vectors := by
  have absent := parts_parenthesis.not_mem_opening (well.named _ call.known) call.blank
  obtain ⟨closer, behind, closed, closes⟩ := exists_closer call.closes
  have other := ne_parenthesis_of_isCloser closes
  have idle : Idle types vectors (call.front.getLast?.or none) (call.typeName ++ call.gap)
      (call.inner ++ call.closed) := by
    intro size opens
    obtain rfl : size = call.size := opens_unique well opens call.opens
    refine Option.eq_none_iff_forall_ne_some.mpr fun (argument, closing) found => stays ?_
    obtain ⟨inner, same, _argument, shuts, repeats⟩ := repeatedArgument?_eq_some_iff.mp found
    cases closing with
    | nil => cases shuts
    | cons mark rest =>
        have lengths := call.closes
        rw [same, repeats.closer? shuts] at lengths
        obtain ⟨rfl, _closed⟩ := List.append_inj same
          (Nat.succ_injective (Option.some.inj lengths)).symm
        exact repeats
  rw [call.expand_code well, expandAfter_idle well absent idle, closed,
    expandAfter_mark well (parts_of_isCloser closes) other plain]
  unfold kept around
  rw [closed, expand_closed well closes, List.append_assoc]

theorem expand_eq_kept_iff (plain : '(' ∉ call.inner) :
    expandVectorCalls types vectors call.code = call.kept vectors ↔
      ¬ Repeats vectors call.size call.inner := by
  constructor
  · intro same repeats
    rw [call.expand_of_repeats well repeats] at same
    have inner : copies call.size call.inner = call.inner := by
      refine List.append_cancel_right (List.cons.inj (List.append_cancel_left
        (List.append_cancel_left (List.append_cancel_left same)))).2
    have fixed : Repeats vectors call.size (copies call.size call.inner) := inner.symm ▸ repeats
    exact not_repeats_copies repeats fixed
  · exact call.expand_of_not_repeats well plain

end Call

end Code
end ShaderBridge
