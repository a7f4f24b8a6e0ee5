import ShaderBridge.Proofs.Code.Function
import ShaderBridge.Proofs.Code.Loop
import ShaderBridge.Proofs.Code.Place
import ShaderBridge.Proofs.Code.Rename
import ShaderBridge.Proofs.Code.VectorCall
set_option autoImplicit false

/-! What becomes of accesses. A table of accesses replaces each that stands in a text, unless its new
name is in use: then it stays (`standsIn_rename_iff`). A new name is declared in the renamed text where
it was declared before, or where an access was that it replaces (`declaredIn_rename_iff`). Temporaries
that are renamed, constructor calls that are written out and loops that are bounded leave accesses and
declared names where they are. -/

namespace ShaderBridge
namespace Code

open Text (Blank Exchanged IsOneWord Lexed startsWord endsWord spell tokens words StandsIn)

/-- The second list is the first with old names replaced: each where no longer one stands, and
everywhere that one stands. -/
inductive Renamed (table : Renames) : List Token → List Token → Prop where
  | nil : Renamed table [] []
  | kept {token : Token} {parts others : List Token} :
      (∀ old ∈ table.keys, ¬ tokens old <+: token :: parts) → Renamed table parts others →
        Renamed table (token :: parts) (token :: others)
  | found {old new : Text} {parts others : List Token} :
      (old, new) ∈ table →
        (∀ other ∈ table.keys, tokens other <+: tokens old ++ parts → tokens other <+: tokens old) →
          Renamed table parts others → Renamed table (tokens old ++ parts) (.word new :: others)

section
variable {table : Renames}

private theorem stands_of_prefix {old text : Text} {parts : List Token} (closes : endsWord old = true)
    (lexed : Lexed parts) (spelled : spell parts = text) (begins : tokens old <+: parts) :
    ∃ rest, text = old ++ rest ∧ startsWord rest = false := by
  obtain ⟨rest, rfl⟩ := begins
  obtain ⟨_old, _rest, apart⟩ := lexed.split
  rw [Text.spell_tokens] at apart
  rw [Text.spell_append, Text.spell_tokens] at spelled
  exact ⟨spell rest, spelled.symm, apart closes⟩

private theorem prefix_of_length_le {old other : Text} {parts : List Token}
    (begins : tokens other <+: tokens old ++ parts) (short : other.length ≤ old.length) :
    tokens other <+: tokens old := by
  rcases List.prefix_or_prefix_of_prefix begins (List.prefix_append _ parts) with inside | beyond
  · exact inside
  · obtain ⟨more, same⟩ := beyond
    have spelled := Text.spell_tokens other
    have lexed := Text.lexed_tokens other
    rw [← same] at spelled lexed
    rw [Text.spell_append, Text.spell_tokens] at spelled
    have long := congrArg List.length spelled
    rw [List.length_append] at long
    have empty : spell more = [] := List.length_eq_zero_iff.mp (by omega)
    have none := Text.tokens_spell lexed.split.2.1
    rw [empty, Text.tokens_nil] at none
    rw [← same, ← none, List.append_nil]

private theorem renamed_of_parted {before : Option Char} {parts : List Part}
    (ends : ∀ old ∈ table.keys, startsWord old = true ∧ endsWord old = true)
    (identifiers : ∀ entry ∈ table, isIdentifier entry.2 = true)
    (parted : Pattern.Parted (Renames.pattern table) before parts)
    (lexed : Lexed (parts.flatMap Part.tokens))
    (cut : before.any isWord = true → startsWord (parts.flatMap Part.text) = false) :
    Renamed table (parts.flatMap Part.tokens)
      (parts.flatMap (Part.newTokens fun old => (table.lookup old).getD old)) := by
  induction parted with
  | nil _none => exact .nil
  | @kept before token parts none _parted ih =>
      rw [List.flatMap_cons, Part.tokens, List.singleton_append] at lexed
      obtain ⟨alone, later, met⟩ := lexed.split_cons
      rw [Pattern.spell_partTokens] at met
      have filled := alone.spell_ne_nil (List.cons_ne_nil _ _)
      rw [Text.spell_cons, Text.spell_nil, List.append_nil] at filled
      refine .kept ?_ (ih later fun inside => met ?_)
      · intro old member begins
        obtain ⟨opens, closes⟩ := ends old member
        obtain ⟨rest, same, apart⟩ := stands_of_prefix closes lexed
          (by rw [Text.spell_cons, Pattern.spell_partTokens]) begins
        have outside : before.any isWord = false := by
          refine Bool.eq_false_iff.mpr fun inside => ?_
          have starts := cut inside
          have front : old ≠ [] := by
            rintro rfl
            cases opens
          rw [List.flatMap_cons, Part.text, same, Text.startsWord_append front, opens] at starts
          cases starts
        exact (Renames.pattern_eq_none_iff outside).mp none old member rest apart same
      · unfold endsWord
        rwa [List.getLast?_eq_some_getLast filled, Option.some_or,
          ← List.getLast?_eq_some_getLast filled] at inside
  | @found before stretch parts filled found _parted ih =>
      rw [List.flatMap_cons, Part.tokens] at lexed
      obtain ⟨_stretch, later, met⟩ := lexed.split
      rw [Text.spell_tokens, Pattern.spell_partTokens] at met
      obtain ⟨_outside, key, apart⟩ := Renames.of_pattern found
      obtain ⟨new, looked⟩ := Renames.exists_lookup key
      have entry := Renames.mem_of_lookup looked
      have single : tokens new = [.word new] :=
        Text.tokens_of_oneWord (isIdentifier_iff.mp (identifiers _ entry)).1
      rw [List.flatMap_cons, List.flatMap_cons, Part.tokens, Part.newTokens, looked, Option.getD_some,
        single]
      refine .found entry ?_ (ih later met)
      intro other member begins
      obtain ⟨rest, same, distant⟩ := stands_of_prefix (ends other member).2 lexed
        (by rw [Text.spell_append, Text.spell_tokens, Pattern.spell_partTokens]) begins
      have short : other.length ≤ stretch.length := by
        unfold Renames.pattern at found
        split at found
        · cases found
        · obtain ⟨old, longest, long⟩ := Option.map_eq_some_iff.mp found
          rw [← long]
          exact Renames.length_le_of_longestAt longest member distant same
      exact prefix_of_length_le begins short

theorem renamed_rename (ends : ∀ old ∈ table.keys, startsWord old = true ∧ endsWord old = true)
    (identifiers : ∀ entry ∈ table, isIdentifier entry.2 = true) (text : Text) :
    Renamed (table.active text) (tokens text) (tokens (rename table text)) := by
  have active : ∀ old ∈ (table.active text).keys, startsWord old = true ∧ endsWord old = true :=
    fun old member => ends old (table.keys_active_subset text member)
  have opens : ∀ old ∈ (table.active text).keys, startsWord old = true :=
    fun old member => (active old member).1
  obtain ⟨parts, parted, lexed, changed, _cuts⟩ := Pattern.tokens_replace
    (Renames.respects_pattern opens (fun old => ((table.active text).lookup old).getD old) text)
    (Renames.apart_pattern opens)
  rw [rename_eq_replace, ← changed, ← lexed]
  refine renamed_of_parted active (fun entry member => ?_) parted (lexed ▸ Text.lexed_tokens text) nofun
  exact identifiers entry (List.mem_filter.mp member).1

namespace Renamed

variable {parts others piece : List Token}

theorem exchanged (renamed : Renamed table parts others) :
    Exchanged (fun old new => ∃ entry ∈ table, old = tokens entry.1 ∧ new = [.word entry.2])
      parts others := by
  induction renamed with
  | nil => exact .nil
  | kept _none _renamed ih => exact .kept ih
  | found entry _longest _renamed ih => exact .found ⟨_, entry, rfl, rfl⟩ ih

private theorem begins_of_begins (renamed : Renamed table parts others)
    (foreign : ∀ entry ∈ table, .word entry.2 ∉ piece) (begins : piece <+: others) :
    piece <+: parts := by
  induction renamed generalizing piece with
  | nil => exact begins
  | kept _none _renamed ih =>
      cases piece with
      | nil => exact List.nil_prefix
      | cons token piece =>
          obtain ⟨rfl, later⟩ := List.cons_prefix_cons.mp begins
          refine List.cons_prefix_cons.mpr ⟨rfl, ih (fun entry member inside => ?_) later⟩
          exact foreign entry member (List.mem_cons_of_mem _ inside)
  | found entry _longest _renamed _ih =>
      cases piece with
      | nil => exact List.nil_prefix
      | cons token piece =>
          obtain ⟨rfl, _later⟩ := List.cons_prefix_cons.mp begins
          exact absurd List.mem_cons_self (foreign _ entry)

/-- Of the old names that are replaced none is left. -/
theorem not_infix (renamed : Renamed table parts others) {old : Text} (member : old ∈ table.keys)
    (filled : tokens old ≠ []) (foreign : ∀ entry ∈ table, .word entry.2 ∉ tokens old) :
    ¬ tokens old <:+: others := by
  induction renamed with
  | nil => exact fun inside => filled (List.infix_nil.mp inside)
  | kept none renamed ih =>
      intro inside
      rcases List.infix_cons_iff.mp inside with begins | later
      · exact none old member ((Renamed.kept none renamed).begins_of_begins foreign begins)
      · exact ih later
  | found entry longest renamed ih =>
      intro inside
      rcases List.infix_cons_iff.mp inside with begins | later
      · cases shape : tokens old with
        | nil => exact filled shape
        | cons token rest =>
            rw [shape] at begins
            obtain ⟨same, _later⟩ := List.cons_prefix_cons.mp begins
            refine foreign _ entry ?_
            rw [shape, same]
            exact List.mem_cons_self
      · exact ih later

theorem infix_of_infix (renamed : Renamed table parts others) 
    (foreign : ∀ entry ∈ table, .word entry.2 ∉ piece) (inside : piece <:+: others) :
    piece <:+: parts := by
  induction renamed with
  | nil => exact inside
  | kept none renamed ih =>
      rcases List.infix_cons_iff.mp inside with begins | later
      · exact ((Renamed.kept none renamed).begins_of_begins foreign begins).isInfix
      · exact (ih later).trans (List.suffix_cons _ _).isInfix
  | found entry longest renamed ih =>
      rcases List.infix_cons_iff.mp inside with begins | later
      · have behind := (Renamed.found entry longest renamed).begins_of_begins foreign begins
        exact behind.isInfix
      · exact (ih later).trans (List.suffix_append _ _).isInfix

end Renamed

end

/-! ### Tables of accesses -/

def Plain (text : Text) : Prop := text ∉ qualifiers ∧ text ∉ statementWords

instance (text : Text) : Decidable (Plain text) := inferInstanceAs (Decidable (_ ∧ _))

def Accesses (old member : Text) : Prop :=
  Plain member ∧ (tokens old = [.word member] ∨
    ∃ block, Plain block ∧ tokens old = [.word block, .mark '.', .word member])

structure Renames.OfAccesses (table : Renames) : Prop where
  access : ∀ entry ∈ table, ∃ member, Accesses entry.1 member
  input : ∀ entry ∈ table, isIdentifier entry.2 = true ∧ Plain entry.2
  /-- No input is part of an access. -/
  fresh : ∀ entry ∈ table, ∀ other ∈ table, .word entry.2 ∉ tokens other.1
  /-- All accesses to a member stand for one input. -/
  single : ∀ entry ∈ table, ∀ other ∈ table, ∀ member, Accesses entry.1 member →
    Accesses other.1 member → entry.2 = other.2
  /-- No block is a member. -/
  apart : ∀ entry ∈ table, ∀ other ∈ table, ∀ block member, Accesses entry.1 block →
    tokens other.1 ≠ [.word block, .mark '.', .word member]

section
variable {old member : Text} (accesses : Accesses old member)
include accesses

theorem Accesses.getLast? : (tokens old).getLast? = some (.word member) := by
  rcases accesses.2 with shape | ⟨block, _plain, shape⟩
  · rw [shape]
    rfl
  · rw [shape]
    rfl

theorem Accesses.unique {other : Text} (same : Accesses old other) : member = other :=
  Token.word.inj (Option.some.inj (accesses.getLast?.symm.trans same.getLast?))

theorem Accesses.linked : Linked (tokens old) := by
  rcases accesses.2 with shape | ⟨block, _plain, shape⟩
  · rw [shape]
    exact ⟨List.cons_ne_nil _ _, by simp⟩
  · rw [shape]
    exact ⟨List.cons_ne_nil _ _, by simp⟩

theorem Accesses.ends : startsWord old = true ∧ endsWord old = true := by
  have lexed := Text.lexed_tokens old
  have spelled := Text.spell_tokens old
  rcases accesses.2 with shape | ⟨block, _plain, shape⟩
  · rw [shape] at lexed spelled
    have one := lexed.oneWord (List.mem_singleton.mpr rfl)
    rw [← spelled, Text.spell_cons, Text.spell_nil, List.append_nil]
    exact ⟨one.startsWord, one.endsWord⟩
  · rw [shape] at lexed spelled
    have first := lexed.oneWord List.mem_cons_self
    have last := lexed.oneWord (List.mem_cons_of_mem _ (List.mem_cons_of_mem _ List.mem_cons_self))
    rw [← spelled]
    simp only [Text.spell_cons, Text.spell_nil, List.append_nil, Token.text]
    refine ⟨?_, ?_⟩
    · rw [Text.startsWord_append first.1]
      exact first.startsWord
    · rw [← List.append_assoc, Text.endsWord_append _ last.1]
      exact last.endsWord

end

/-- Two accesses to different members, of which neither is a block of the other, do not overlap. -/
theorem Accesses.distant {old member other last : Text} (accesses : Accesses old member)
    (reads : Accesses other last) (different : member ≠ last)
    (outer : ∀ block, tokens other = [.word block, .mark '.', .word last] → member ≠ block)
    (inner : ∀ block, tokens old = [.word block, .mark '.', .word member] → last ≠ block) :
    Distant (tokens old) member (tokens other) := by
  refine ⟨?_, ?_⟩
  · rcases reads.2 with shape | ⟨block, _plain, shape⟩
    · rw [shape]
      simpa using different
    · have away := outer block shape
      rw [shape]
      simp [different, away]
  · obtain ⟨front, same⟩ := List.getLast?_eq_some_iff.mp reads.getLast?
    refine ⟨front, .word last, same, ?_⟩
    rcases accesses.2 with shape | ⟨block, _plain, shape⟩
    · rw [shape]
      simpa using different.symm
    · have away := inner block shape
      rw [shape]
      simp [different.symm, away]

theorem Place.pass_plain {word other : Text} (plain : Plain word) (another : Plain other)
    (place : Place) : place.pass (.word word) = place.pass (.word other) := by
  cases place with
  | lost => rfl
  | inside depth role =>
      cases depth with
      | zero => cases role <;> simp [pass, Role.word, plain.1, plain.2, another.1, another.2]
      | succ depth => rfl

/-- An access counts as one word. -/
theorem Accesses.across {old member word : Text} (accesses : Accesses old member) (plain : Plain word)
    (place : Place) : place.across (tokens old) = place.pass (.word word) := by
  rcases accesses.2 with shape | ⟨block, named, shape⟩
  · rw [shape]
    exact Place.pass_plain accesses.1 plain place
  · rw [shape, Place.across_cons, Place.across_cons, Place.across_cons, Place.across_nil,
      Place.pass_plain named plain, Place.pass_plain accesses.1 plain]
    have point : isBlank '.' = false ∧ isOpener '.' = false ∧ isCloser '.' = false := by decide
    obtain ⟨dark, opens, closes⟩ := point
    cases place with
    | lost => rfl
    | inside depth role =>
        cases depth with
        | zero =>
            cases role <;>
              simp [Place.pass, Role.word, Role.mark, plain.1, plain.2, dark, opens, closes]
        | succ depth => simp [Place.pass, dark, opens, closes]

theorem Place.not_declares_point (place : Place) : ¬ (place.pass (.mark '.')).Declares := by
  have point : isBlank '.' = false ∧ isOpener '.' = false ∧ isCloser '.' = false := by decide
  obtain ⟨dark, opens, closes⟩ := point
  cases place with
  | lost => exact nofun
  | inside depth role =>
      cases depth with
      | zero => cases role <;> simp [Place.pass, Place.Declares, Role.mark, dark, opens, closes]
      | succ depth => simp [Place.pass, Place.Declares, dark, opens, closes]

section
variable {table : Renames} (ofAccesses : table.OfAccesses)
include ofAccesses

theorem Renames.OfAccesses.ends {old : Text} (key : old ∈ table.keys) :
    startsWord old = true ∧ endsWord old = true := by
  obtain ⟨new, entry⟩ := Renames.mem_keys.mp key
  obtain ⟨_member, accesses⟩ := ofAccesses.access _ entry
  exact accesses.ends

theorem renamed_accesses (text : Text) :
    Renamed (table.active text) (tokens text) (tokens (rename table text)) :=
  renamed_rename (fun _old key => ofAccesses.ends key)
    (fun entry known => (ofAccesses.input entry known).1) text

private theorem mem_active_accesses {text old new : Text} :
    (old, new) ∈ table.active text ↔ (old, new) ∈ table ∧ new ∉ words text := by
  constructor
  · intro active
    have entry := (List.mem_filter.mp active).1
    exact ⟨entry, Renames.not_mem_words_of_active active (ofAccesses.input _ entry).1⟩
  · rintro ⟨entry, unused⟩
    have identifier := (ofAccesses.input _ entry).1
    refine (Renames.mem_active_iff identifier).mpr ⟨entry, ?_, unused⟩
    rintro rfl
    refine ofAccesses.fresh _ entry _ entry ?_
    rw [Text.tokens_of_oneWord (isIdentifier_iff.mp identifier).1]
    exact List.mem_singleton.mpr rfl

/-- An access is left where its input is in use as a name of its own, and nowhere else. -/
theorem standsIn_rename_iff {old new : Text} (entry : (old, new) ∈ table) (text : Text) :
    StandsIn old (rename table text) ↔ StandsIn old text ∧ new ∈ words text := by
  have renamed := renamed_accesses ofAccesses text
  obtain ⟨member, accesses⟩ := ofAccesses.access _ entry
  obtain ⟨opens, closes⟩ := accesses.ends
  have foreign : ∀ other ∈ table.active text, .word other.2 ∉ tokens old := fun other active =>
    ofAccesses.fresh _ (List.mem_filter.mp active).1 _ entry
  rw [standsIn_iff opens closes, standsIn_iff opens closes]
  constructor
  · intro inside
    refine ⟨renamed.infix_of_infix foreign inside, ?_⟩
    by_contra unused
    have active := (mem_active_accesses ofAccesses).mpr ⟨entry, unused⟩
    exact renamed.not_infix (Renames.mem_keys.mpr ⟨new, active⟩) accesses.linked.1 foreign inside
  · rintro ⟨inside, used⟩
    rw [← occurs_true_iff .start] at inside ⊢
    refine (occurs_exchanged_iff renamed.exchanged accesses.getLast? ?_ ?_ .start).mpr inside
    · rintro _ _ ⟨other, active, rfl, rfl⟩
      obtain ⟨known, unused⟩ := (mem_active_accesses ofAccesses).mp active
      obtain ⟨last, reads⟩ := ofAccesses.access _ known
      have different : last ≠ member := by
        rintro rfl
        exact unused (ofAccesses.single _ known _ entry last reads accesses ▸ used)
      refine ⟨accesses.distant reads different.symm ?_ ?_, ?_, [], _, rfl, foreign other active⟩
      · intro block shape same
        exact ofAccesses.apart _ entry _ known block last (same ▸ accesses) shape
      · intro block shape same
        exact ofAccesses.apart _ known _ entry block member (same ▸ reads) shape
      · rw [List.mem_singleton]
        rintro same
        refine foreign other active ?_
        rw [← same]
        exact List.mem_of_getLast? accesses.getLast?
    · rintro _ _ ⟨other, active, rfl, rfl⟩ place
      obtain ⟨known, _unused⟩ := (mem_active_accesses ofAccesses).mp active
      obtain ⟨_last, reads⟩ := ofAccesses.access _ known
      exact reads.across (ofAccesses.input _ known).2 place

private theorem input_of_longest {old new other name : Text} (known : (old, new) ∈ table)
    (entry : (other, name) ∈ table) (within : tokens other <+: tokens old) : new = name := by
  obtain ⟨member, accesses⟩ := ofAccesses.access _ entry
  obtain ⟨last, reads⟩ := ofAccesses.access _ known
  have final : last = member := by
    rcases accesses.2 with shape | ⟨block, _plain, shape⟩
    · rcases reads.2 with alone | ⟨block, _plain, pair⟩
      · rw [shape, alone] at within
        exact (Token.word.inj (List.cons_prefix_cons.mp within).1).symm
      · rw [shape, pair] at within
        obtain rfl := Token.word.inj (List.cons_prefix_cons.mp within).1
        exact absurd pair (ofAccesses.apart _ entry _ known member last accesses)
    · rcases reads.2 with alone | ⟨other, _plain, pair⟩
      · rw [shape, alone] at within
        exact absurd within.length_le (by simp)
      · rw [shape, pair] at within
        have behind := (List.cons_prefix_cons.mp (List.cons_prefix_cons.mp within).2).2
        exact (Token.word.inj (List.cons_prefix_cons.mp behind).1).symm
  exact ofAccesses.single _ known _ entry member (final ▸ reads) accesses

private theorem occurs_found {old new other name : Text} {place : Place} {parts : List Token}
    (known : (old, new) ∈ table) (entry : (other, name) ∈ table)
    (longest : tokens other <+: tokens old ++ parts → tokens other <+: tokens old)
    (occurs : Occurs Place.Declares (tokens other) place (tokens old ++ parts)) :
    new = name ∧ place.Declares ∨
      Occurs Place.Declares (tokens other) (place.across (tokens old)) parts := by
  obtain ⟨member, accesses⟩ := ofAccesses.access _ entry
  obtain ⟨last, reads⟩ := ofAccesses.access _ known
  obtain ⟨first, rest, same, here⟩ := occurs
  have begins : ∀ mark more, tokens other ++ rest ≠ .mark mark :: more := by
    intro mark more equal
    rcases accesses.2 with shape | ⟨block, _plain, shape⟩ <;>
      · rw [shape] at equal
        cases (List.cons.inj equal).1
  cases first with
  | nil => exact .inl ⟨input_of_longest ofAccesses known entry (longest ⟨rest, same.symm⟩), here⟩
  | cons token first =>
      rcases reads.2 with alone | ⟨block, _plain, pair⟩
      · rw [alone] at same ⊢
        obtain ⟨rfl, later⟩ := List.cons.inj same
        exact .inr ⟨first, rest, later, here⟩
      · rw [pair] at same ⊢
        obtain ⟨rfl, later⟩ := List.cons.inj same
        cases first with
        | nil => exact absurd later.symm (begins _ _)
        | cons second first =>
            obtain ⟨rfl, last⟩ := List.cons.inj later
            cases first with
            | nil => exact absurd here (Place.not_declares_point _)
            | cons third first =>
                obtain ⟨rfl, behind⟩ := List.cons.inj last
                exact .inr ⟨first, rest, behind, here⟩

private theorem declared_of_renamed {name : Text} {place : Place} {parts others : List Token}
    {active : Renames} (within : active ⊆ table) (renamed : Renamed active parts others)
    (occurs : Occurs Place.Declares [.word name] place others) :
    Occurs Place.Declares [.word name] place parts ∨
      ∃ old, (old, name) ∈ active ∧ Occurs Place.Declares (tokens old) place parts := by
  induction renamed generalizing place with
  | nil => exact .inl occurs
  | @kept token parts others _none _renamed ih =>
      rw [occurs_cons] at occurs
      rcases occurs with ⟨begins, here⟩ | later
      · obtain ⟨rfl, _later⟩ := List.cons_prefix_cons.mp begins
        exact .inl ⟨[], parts, rfl, here⟩
      · refine (ih later).imp ?_ ?_
        · exact fun inside => (occurs_cons _ _ _).mpr (.inr inside)
        · rintro ⟨old, entry, inside⟩
          exact ⟨old, entry, (occurs_cons _ _ _).mpr (.inr inside)⟩
  | @found old new parts others entry _longest _renamed ih =>
      obtain ⟨_last, reads⟩ := ofAccesses.access _ (within entry)
      rw [occurs_cons] at occurs
      rcases occurs with ⟨begins, here⟩ | later
      · obtain ⟨same, _later⟩ := List.cons_prefix_cons.mp begins
        obtain rfl := Token.word.inj same
        exact .inr ⟨old, entry, [], parts, rfl, here⟩
      · rw [← reads.across (ofAccesses.input _ (within entry)).2 place] at later
        refine (ih later).imp Occurs.append_left ?_
        rintro ⟨other, known, inside⟩
        exact ⟨other, known, inside.append_left⟩

private theorem declared_of_access {name other : Text} {place : Place} {parts others : List Token}
    {active : Renames} (within : active ⊆ table) (renamed : Renamed active parts others)
    (known : (other, name) ∈ active)
    (occurs : Occurs Place.Declares (tokens other) place parts) :
    Occurs Place.Declares [.word name] place others := by
  have key : other ∈ active.keys := Renames.mem_keys.mpr ⟨name, known⟩
  obtain ⟨_member, accesses⟩ := ofAccesses.access _ (within known)
  induction renamed generalizing place with
  | nil => exact absurd occurs (not_occurs_nil accesses.linked.1 place)
  | kept none _renamed ih =>
      rw [occurs_cons] at occurs ⊢
      exact .inr (ih (occurs.resolve_left fun begins => none other key begins.1))
  | @found old new parts others entry longest _renamed ih =>
      obtain ⟨_last, reads⟩ := ofAccesses.access _ (within entry)
      rw [occurs_cons]
      rcases occurs_found ofAccesses (within entry) (within known) (longest other key) occurs with
        ⟨rfl, here⟩ | behind
      · exact .inl ⟨⟨others, rfl⟩, here⟩
      · rw [reads.across (ofAccesses.input _ (within entry)).2 place] at behind
        exact .inr (ih behind)

/-- A name that is part of no access is declared in the renamed text where it was declared before, and,
where it was not in use, where an access was declared that it stands for. -/
theorem declaredIn_rename_iff {name : Text} (one : IsOneWord name)
    (foreign : ∀ entry ∈ table, .word name ∉ tokens entry.1) (text : Text) :
    DeclaredIn name (rename table text) ↔
      DeclaredIn name text ∨ name ∉ words text ∧ ∃ old, (old, name) ∈ table ∧ DeclaredIn old text := by
  have renamed := renamed_accesses ofAccesses text
  have within : table.active text ⊆ table := fun _entry member => (List.mem_filter.mp member).1
  have known : ∀ old, (old, name) ∈ table.active text ↔ (old, name) ∈ table ∧ name ∉ words text :=
    fun old => mem_active_accesses ofAccesses
  unfold DeclaredIn StandsAt
  rw [Text.tokens_of_oneWord one]
  constructor
  · intro occurs
    refine (declared_of_renamed ofAccesses within renamed occurs).imp_right ?_
    rintro ⟨old, active, inside⟩
    obtain ⟨entry, unused⟩ := (known old).mp active
    exact ⟨unused, old, entry, inside⟩
  · rintro (occurs | ⟨unused, old, entry, inside⟩)
    · have used : name ∈ words text :=
        Text.mem_words.mpr (occurs.subset (List.mem_singleton.mpr rfl))
      have ends : [Token.word name].getLast? = some (.word name) := rfl
      refine (occurs_exchanged_iff renamed.exchanged ends ?_ ?_ .start).mpr occurs
      · rintro _ _ ⟨other, active, rfl, rfl⟩
        obtain ⟨entry, unused⟩ := (mem_active_accesses ofAccesses).mp active
        obtain ⟨last, reads⟩ := ofAccesses.access _ entry
        have apart := foreign other entry
        obtain ⟨front, same⟩ := List.getLast?_eq_some_iff.mp reads.getLast?
        have different : name ≠ other.2 := fun equal => unused (equal ▸ used)
        refine ⟨⟨apart, front, .word last, same, fun member => apart ?_⟩, ?_, [], _, rfl, ?_⟩
        · rw [← List.mem_singleton.mp member, same]
          exact List.mem_concat_self
        · simpa using different
        · simpa using different.symm
      · rintro _ _ ⟨other, active, rfl, rfl⟩ place
        obtain ⟨_last, reads⟩ := ofAccesses.access _ (within active)
        exact reads.across (ofAccesses.input _ (within active)).2 place
    · exact declared_of_access ofAccesses within renamed ((known old).mpr ⟨entry, unused⟩) inside

end

section
variable {Here : Place → Prop} {piece : List Token} {last : Text}

private theorem plain_temporary {old new : Text} (temporary : Temporary old new) :
    Plain old ∧ Plain new := by
  obtain ⟨digits, _number, rfl, rfl⟩ := temporary
  have begins : ∀ word ∈ qualifiers ++ statementWords,
      word.head? ≠ some '_' ∧ word.head? ≠ some 't' := by
    decide
  have early : ∀ {word : Text}, word.head? = some '_' ∨ word.head? = some 't' → Plain word := by
    intro word first
    have absent : word ∉ qualifiers ++ statementWords := fun member =>
      first.elim (begins word member).1 (begins word member).2
    rw [List.mem_append, not_or] at absent
    exact absent
  exact ⟨early (.inl rfl), early (.inr rfl)⟩

/-- The renaming of temporaries leaves everything else where it is. -/
theorem occurs_renameTemporaries_iff (ends : piece.getLast? = some (.word last))
    (apart : ∀ old new, Temporary old new → .word old ∉ piece ∧ .word new ∉ piece) (text : Text)
    (place : Place) :
    Occurs Here piece place (tokens (renameTemporaries text)) ↔
      Occurs Here piece place (tokens text) := by
  obtain ⟨table, same, covers⟩ := renameTemporaries_eq text
  have ofWords := isRenaming_temporary.ofWords covers.within
  have whole : ∀ old ∈ table.keys, startsWord old = true ∧ endsWord old = true := by
    intro old key
    have one := ofWords.oneWord key
    exact ⟨one.startsWord, one.endsWord⟩
  have renamed := renamed_rename whole (fun entry member => (ofWords entry member).2) text
  rw [same]
  refine occurs_exchanged_iff renamed.exchanged ends ?_ ?_ place
  · rintro _ _ ⟨⟨old, new⟩, active, rfl, rfl⟩
    have entry := (List.mem_filter.mp active).1
    obtain ⟨before, after⟩ := apart old new (covers.within entry)
    have member := List.mem_of_getLast? ends
    rw [Text.tokens_of_oneWord (ofWords _ entry).1]
    refine ⟨⟨?_, [], _, rfl, before⟩, ?_, [], _, rfl, after⟩
    · exact fun inside => before (List.mem_singleton.mp inside ▸ member)
    · exact fun inside => after (List.mem_singleton.mp inside ▸ member)
  · rintro _ _ ⟨⟨old, new⟩, active, rfl, rfl⟩ place
    have entry := (List.mem_filter.mp active).1
    obtain ⟨plain, another⟩ := plain_temporary (covers.within entry)
    rw [Text.tokens_of_oneWord (ofWords _ entry).1]
    exact Place.pass_plain plain another place

private theorem occurs_copies (Here : Place → Prop) (linked : Linked piece) {place : Place}
    (enclosed : place.Enclosed) {argument : Text} (flat : ∀ char ∈ argument, isOpener char = false ∧ isCloser char = false)
    (more : Nat) :
    let copies := Text.join ", " (List.replicate (more + 1) argument)
    (Occurs Here piece place (tokens copies) ↔ Occurs Here piece place (tokens argument)) ∧
      ∀ char ∈ copies, isOpener char = false ∧ isCloser char = false := by
  induction more with
  | zero =>
      have single : Text.join ", " (List.replicate (0 + 1) argument) = argument :=
        List.append_nil argument
      simp only [single]
      exact ⟨trivial, flat⟩
  | succ more ih =>
      have split : Text.join ", " (List.replicate (more + 1 + 1) argument) =
          argument ++ ',' :: ' ' :: Text.join ", " (List.replicate (more + 1) argument) :=
        Text.join_cons_cons _ _ _ _
      obtain ⟨inner, marks⟩ := ih
      have still : place.across (tokens argument) = place :=
        enclosed.across fun char member => flat char (Text.mark_mem_tokens.mp member).1
      have comma : place.across [.mark ','] = place := enclosed.across fun char member => by
        rw [Token.mark.inj (List.mem_singleton.mp member)]
        decide
      rw [Place.across_cons, Place.across_nil] at comma
      have space : Token.isWhite (.mark ' ') = true := by decide
      refine ⟨?_, ?_⟩
      · simp only [split]
        rw [Text.tokens_append_mark (by decide), Text.tokens_cons_mark (by decide),
          occurs_cut linked.1 (linked.not_mem (by decide)), still, comma,
          ← List.singleton_append, occurs_white_append linked.1 linked.dark
            (List.forall_mem_singleton.mpr space), inner, or_self]
      · simp only [split]
        intro char member
        rcases List.mem_append.mp member with here | there
        · exact flat char here
        · rcases List.mem_cons.mp there with rfl | there
          · decide
          · rcases List.mem_cons.mp there with rfl | there
            · decide
            · exact marks char there

theorem repeatedArgument?_closing {vectors : List Text} {size : Nat}
    {text argument closing : Text}
    (found : repeatedArgument? vectors size text = some (argument, closing)) :
    closing.head?.any isCloser = true := by
  obtain ⟨close, closed, found⟩ := Option.bind_eq_some_iff.mp found
  obtain ⟨inner, rest, rfl, rfl, closes⟩ := closer?_eq_some rfl closed
  rw [Nat.add_sub_cancel, List.drop_left] at found
  split at found
  · obtain ⟨_allowed, equal⟩ := Option.ite_none_right_eq_some.mp found
    obtain ⟨_argument, rfl⟩ := Prod.mk.inj (Option.some.inj equal)
    exact closes
  · cases found

/-- What stands between the parentheses of a call stands there when the call is written out. -/
private theorem occurs_arguments (linked : Linked piece) {place : Place} (enclosed : place.Enclosed)
    {vectors : List Text} {size : Nat} {rest arguments closing : Text}
    (out : expandedArguments vectors size rest = some (arguments, closing)) :
    Occurs Here piece place (tokens (arguments ++ closing)) ↔
      Occurs Here piece place (tokens rest) := by
  obtain ⟨⟨argument, behind⟩, found, same⟩ := Option.map_eq_some_iff.mp out
  cases same
  obtain ⟨several, simple, trimmed, before, after, left, right, rfl⟩ :=
    repeatedArgument?_eq_some found
  have closes := repeatedArgument?_closing found
  obtain ⟨more, rfl⟩ : ∃ more, size = more + 1 := ⟨size - 1, by omega⟩
  have flat : ∀ char ∈ argument, isOpener char = false ∧ isCloser char = false := by
    intro char member
    refine not_bracket_of_not_mem fun bracket => ?_
    have marks : ∀ mark ∈ ("([\x7b)]\x7d" : Text),
        isWord mark = false ∧ mark ∉ (".+-" : Text) := by
      decide
    obtain ⟨apart, foreign⟩ := marks char bracket
    have none := count_of_isSimpleScalar apart foreign simple
    rw [trimmed] at none
    exact List.count_eq_zero.mp none member
  have still : ∀ {text : Text}, (∀ char ∈ text, isOpener char = false ∧ isCloser char = false) →
      place.across (tokens text) = place :=
    fun level => enclosed.across fun char member => level char (Text.mark_mem_tokens.mp member).1
  have blank : ∀ {white : Text}, Blank white →
      ∀ char ∈ white, isOpener char = false ∧ isCloser char = false :=
    fun white char member => not_bracket (.inr (white char member))
  obtain ⟨copied, marks⟩ := occurs_copies Here linked enclosed flat more
  have spaced : Occurs Here piece place (tokens (before ++ argument ++ after)) ↔
      Occurs Here piece place (tokens argument) := by
    rw [List.append_assoc, Text.tokens_append fun ends => absurd (left.endsWord.symm.trans ends) nofun,
      Text.tokens_append fun _ends => right.startsWord,
      occurs_white_append linked.1 linked.dark fun _token => left.isWhite,
      occurs_append_white linked.1 linked.dark fun _token => right.isWhite]
  cases closing with
  | nil => cases closes
  | cons char closing =>
      have known : char ∈ (")]\x7d" : Text) := by
        have same : isCloser char = true := closes
        simp only [isCloser, Bool.or_eq_true, beq_iff_eq, or_assoc] at same
        simpa using same
      have each : ∀ mark ∈ (")]\x7d" : Text), isWord mark = false ∧ mark ≠ '.' := by
        decide
      obtain ⟨mark, point⟩ := each char known
      rw [Text.tokens_append_mark mark, Text.tokens_append_mark mark,
        occurs_cut linked.1 (linked.not_mem point), occurs_cut linked.1 (linked.not_mem point), copied,
        spaced, still marks, still]
      simp only [List.forall_mem_append]
      exact ⟨⟨blank left, flat⟩, blank right⟩

private theorem occurs_expandFrom (linked : Linked piece) {types : VectorTypes} {vectors : List Text}
    (sites : Nat) (before : Option Char) (text : Text) (place : Place) :
    Occurs Here piece place (tokens (expandFrom types vectors sites before text)) ↔
      Occurs Here piece place (tokens text) := by
  have round : isWord '(' = false := by decide
  have absent : Token.mark '(' ∉ piece := linked.not_mem (by decide)
  induction sites generalizing before text place with
  | zero => exact Iff.rfl
  | succ sites ih =>
      rcases expandFrom_cases types vectors sites before text with
        ⟨_none, same⟩ | ⟨passed, size, rest, next, call⟩
      · rw [same]
      · obtain ⟨front, name, blanks, _known, _blank, rfl, whole, _call⟩ := nextCall_eq_some next
        have cut : ∀ behind : Text, Occurs Here piece place
            (tokens (front ++ (name ++ blanks ++ ['(']) ++ behind)) ↔
            Occurs Here piece place (tokens (front ++ (name ++ blanks))) ∨ Occurs Here piece
              ((place.across (tokens (front ++ (name ++ blanks)))).pass (.mark '(')) (tokens behind) := by
          intro behind
          have split : front ++ (name ++ blanks ++ ['(']) ++ behind =
              front ++ (name ++ blanks) ++ '(' :: behind := by
            simp
          rw [split, Text.tokens_append_mark round, occurs_cut linked.1 absent]
        rcases call with ⟨_stays, same⟩ | ⟨arguments, closing, out, same⟩
        · rw [same, whole, cut, cut]
          exact or_congr_right (ih _ _ _)
        · have enclosed := Place.enclosed_pass_opener (by decide : isOpener '(' = true)
            (place.across (tokens (front ++ (name ++ blanks))))
          rw [same, whole, cut, cut]
          exact or_congr_right ((ih _ _ _).trans (occurs_arguments linked enclosed out))

theorem occurs_expandVectorCalls_iff (linked : Linked piece) (types : VectorTypes)
    (vectors : List Text) (text : Text) (place : Place) :
    Occurs Here piece place (tokens (expandVectorCalls types vectors text)) ↔
      Occurs Here piece place (tokens text) :=
  occurs_expandFrom linked _ none text place

private theorem across_loopHead {head keyword blanks inner : Text}
    (shape : LoopHead head keyword blanks inner) (place : Place) :
    place.across (tokens head) =
      ((place.pass (.word "for")).pass (.mark '(')).pass (.mark ')') := by
  have plain : Plain "for" := by decide
  have named : Plain keyword := by
    rcases shape.keyword with rfl | rfl <;> decide
  have enclosed := Place.enclosed_pass_opener (by decide : isOpener '(' = true)
    (place.pass (.word "for"))
  rw [shape.tokens_eq, Place.across_cons, Place.across_append, Place.across_cons, Place.across_append,
    Place.across_white _ fun _token => shape.blank.isWhite, Place.pass_plain named plain, enclosed.across]
  · rfl
  · exact fun char member => shape.flat char (Text.mark_mem_tokens.mp member).1

/-- The bounding of loops leaves everything else where it is. -/
theorem occurs_boundLoops_iff (linked : Linked piece) (ends : piece.getLast? = some (.word last))
    (unread : ∃ char ∈ last, ¬ InEndlessHead char) (unwritten : ∃ char ∈ last, ¬ InBoundedHead char)
    {text bounded : Text} (done : boundLoops iterationCeiling text = .ok bounded) (place : Place) :
    Occurs Here piece place (tokens bounded) ↔ Occurs Here piece place (tokens text) := by
  have closing : ∀ {head keyword blanks inner : Text}, LoopHead head keyword blanks inner →
      ∃ front token, tokens head = front ++ [token] ∧ token ∉ piece := by
    intro head keyword blanks inner shape
    refine ⟨.word keyword :: (tokens blanks ++ .mark '(' :: tokens inner), .mark ')', ?_,
      linked.not_mem (by decide)⟩
    rw [shape.tokens_eq]
    simp
  refine occurs_exchanged_iff (exchanged_boundLoops done) ends ?_ ?_ place
  · rintro _ _ ⟨stretch, head, rfl, rfl, ⟨_, _, _, shape⟩, ⟨_, _, _, another⟩, before, after⟩
    obtain ⟨char, inside, other⟩ := unread
    obtain ⟨letter, within, apart⟩ := unwritten
    refine ⟨⟨fun member => other (before char ?_), closing shape⟩,
      fun member => apart (after letter ?_), closing another⟩
    · exact Text.mem_of_mem_words (Text.mem_words.mpr member) inside
    · exact Text.mem_of_mem_words (Text.mem_words.mpr member) within
  · rintro _ _ ⟨stretch, head, rfl, rfl, ⟨_, _, _, shape⟩, ⟨_, _, _, another⟩, _before, _after⟩ place
    rw [across_loopHead shape, across_loopHead another]

end

end Code
end ShaderBridge
