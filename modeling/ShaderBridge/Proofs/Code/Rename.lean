import ShaderBridge.Proofs.Code.Identifier
set_option autoImplicit false

/-! Renaming by tables. A table of words is applied to each word of a text for itself
(`tokens_rename`). A text is settled under a renaming when each name in it that would be renamed has
its new name in use already. A rename settles its text (`Renames.Covers.settled`), leaves a settled
text alone (`Settled.rename_eq_self`), and keeps a text settled under renamings of other names
(`Settled.reworded`), so that renaming a second time changes nothing. -/

namespace ShaderBridge
namespace Code

open Text (IsOneWord startsWord tokens words)

namespace Renames

def keys (table : Renames) : List Text := table.map Prod.fst

theorem mem_keys {table : Renames} {old : Text} :
    old ∈ table.keys ↔ ∃ new, (old, new) ∈ table := by
  unfold keys
  rw [List.mem_map]
  constructor
  · rintro ⟨⟨name, new⟩, member, rfl⟩
    exact ⟨new, member⟩
  · rintro ⟨new, member⟩
    exact ⟨_, member, rfl⟩

theorem mem_of_lookup {table : Renames} {old new : Text} (found : table.lookup old = some new) :
    (old, new) ∈ table := by
  obtain ⟨before, after, rfl, _earlier⟩ := List.lookup_eq_some_iff.mp found
  exact List.mem_append_right before List.mem_cons_self

theorem lookup_eq_none_iff {table : Renames} {old : Text} :
    table.lookup old = none ↔ old ∉ table.keys := by
  rw [List.lookup_eq_none_iff]
  unfold keys
  rw [List.mem_map, not_exists]
  refine forall_congr' fun entry => ?_
  rw [bne_iff_ne, not_and]
  exact forall_congr' fun _member => ne_comm

theorem mem_put {old new : Text} {table : Renames} {entry : Text × Text}
    (member : entry ∈ table.put old new) : entry = (old, new) ∨ entry ∈ table := by
  induction table with
  | nil => exact .inl (List.mem_singleton.mp member)
  | cons first table ih =>
      obtain ⟨name, value⟩ := first
      rw [put] at member
      split at member
      · rcases List.mem_cons.mp member with same | later
        · exact .inl same
        · exact .inr (List.mem_cons_of_mem _ later)
      · rcases List.mem_cons.mp member with same | later
        · exact .inr (same ▸ List.mem_cons_self)
        · exact (ih later).imp_right (List.mem_cons_of_mem _)

theorem keys_subset_put (old new : Text) (table : Renames) :
    table.keys ⊆ (table.put old new).keys := by
  induction table with
  | nil => exact List.nil_subset _
  | cons first table ih =>
      obtain ⟨name, value⟩ := first
      rw [put]
      split
      · next same =>
          rw [same]
          exact List.Subset.refl _
      · exact List.cons_subset_cons name ih

theorem mem_keys_put (old new : Text) (table : Renames) : old ∈ (table.put old new).keys := by
  induction table with
  | nil => exact List.mem_singleton.mpr rfl
  | cons first table ih =>
      obtain ⟨name, value⟩ := first
      rw [put]
      split
      · exact List.mem_cons_self
      · exact List.mem_cons_of_mem _ ih

section
variable {Item : Type} (old new : Item → Text)

def collect (items : List Item) (table : Renames) : Renames :=
  items.foldl (fun table item => table.put (old item) (new item)) table

variable {old new}

theorem mem_collect {items : List Item} {table : Renames} {entry : Text × Text} (member : entry ∈ collect old new items table) :
    (∃ item ∈ items, entry = (old item, new item)) ∨ entry ∈ table := by
  induction items generalizing table with
  | nil => exact .inr member
  | cons item items ih =>
      rcases ih member with ⟨other, later, same⟩ | early
      · exact .inl ⟨other, List.mem_cons_of_mem _ later, same⟩
      · exact (mem_put early).imp_left fun same => ⟨item, List.mem_cons_self, same⟩

theorem keys_subset_collect (items : List Item) (table : Renames) :
    table.keys ⊆ (collect old new items table).keys := by
  induction items generalizing table with
  | nil => exact List.Subset.refl _
  | cons item items ih => exact List.Subset.trans (keys_subset_put _ _ table) (ih _)

theorem mem_keys_collect {items : List Item} {item : Item} (member : item ∈ items)
    (table : Renames) : old item ∈ (collect old new items table).keys := by
  induction items generalizing table with
  | nil => cases member
  | cons first items ih =>
      rcases List.mem_cons.mp member with rfl | later
      · exact keys_subset_collect items _ (mem_keys_put _ _ table)
      · exact ih later _

end

private theorem stands_iff {old text : Text} :
    ((Scan.literal old >=> Scan.wordEnd) text).isSome = true ↔
      ∃ rest, text = old ++ rest ∧ startsWord rest = false := by
  rw [Option.isSome_iff_exists]
  exact exists_congr fun rest => Scan.wholeName_eq_some_iff

/-- The longer of the best name so far and the name of an entry, if that stands in front. -/
private def longer (text : Text) (best : Option Text) (entry : Text × Text) : Option Text :=
  if ((Scan.literal entry.1 >=> Scan.wordEnd) text).isSome
    && best.all fun other => other.length < entry.1.length
  then some entry.1 else best

private theorem stands_of_foldl_longer {table : Renames} {text old : Text} {best : Option Text}
    (found : table.foldl (longer text) best = some old) :
    best = some old ∨
      old ∈ table.keys ∧ ∃ rest, text = old ++ rest ∧ startsWord rest = false := by
  induction table generalizing best with
  | nil => exact .inl found
  | cons entry table ih =>
      rcases ih found with here | ⟨later, stands⟩
      · unfold longer at here
        split at here
        · next better =>
            cases here
            exact .inr ⟨List.mem_cons_self, stands_iff.mp (Bool.and_eq_true_iff.mp better).1⟩
        · exact .inl here
      · exact .inr ⟨List.mem_cons_of_mem _ later, stands⟩

private theorem missed_of_foldl_longer {table : Renames} {text : Text} {best : Option Text}
    (missed : table.foldl (longer text) best = none) :
    best = none ∧ ∀ old ∈ table.keys, ∀ rest, startsWord rest = false → text ≠ old ++ rest := by
  induction table generalizing best with
  | nil => exact ⟨missed, nofun⟩
  | cons entry table ih =>
      obtain ⟨here, later⟩ := ih missed
      unfold longer at here
      split at here
      · cases here
      · next worse =>
          subst here
          refine ⟨rfl, List.forall_mem_cons.mpr ⟨?_, later⟩⟩
          intro rest apart stands
          exact worse (Bool.and_eq_true_iff.mpr ⟨stands_iff.mpr ⟨rest, stands, apart⟩, rfl⟩)

private theorem length_le_of_foldl_longer {table : Renames} {text old : Text} {best : Option Text}
    (found : table.foldl (longer text) best = some old) :
    (∀ other ∈ best, other.length ≤ old.length) ∧
      ∀ other ∈ table.keys, ∀ rest, startsWord rest = false → text = other ++ rest →
        other.length ≤ old.length := by
  induction table generalizing best with
  | nil =>
      refine ⟨?_, nofun⟩
      intro other member
      rw [Option.some.inj (member.symm.trans found)]
  | cons entry table ih =>
      obtain ⟨here, later⟩ := ih found
      have each : (∀ other ∈ best, other.length ≤ old.length) ∧
          ∀ rest, startsWord rest = false → text = entry.1 ++ rest →
            entry.1.length ≤ old.length := by
        unfold longer at here
        split at here
        · next better =>
            have longest := here entry.1 rfl
            have shorter := (Bool.and_eq_true_iff.mp better).2
            refine ⟨fun other member => ?_, fun _rest _apart _stands => longest⟩
            rw [Option.mem_def.mp member] at shorter
            exact (of_decide_eq_true shorter).le.trans longest
        · next worse =>
            refine ⟨here, fun rest apart stands => ?_⟩
            have standing := stands_iff.mpr ⟨rest, stands, apart⟩
            rw [standing, Bool.true_and, Bool.not_eq_true] at worse
            cases best with
            | none => cases worse
            | some other =>
                exact (not_lt.mp (of_decide_eq_false worse)).trans (here other rfl)
      exact ⟨each.1, List.forall_mem_cons.mpr ⟨each.2, later⟩⟩

theorem stands_of_longestAt {table : Renames} {text old : Text}
    (found : table.longestAt text = some old) :
    old ∈ table.keys ∧ ∃ rest, text = old ++ rest ∧ startsWord rest = false :=
  (stands_of_foldl_longer found).resolve_left nofun

theorem length_le_of_longestAt {table : Renames} {text old other rest : Text}
    (found : table.longestAt text = some old) (member : other ∈ table.keys)
    (apart : startsWord rest = false) (stands : text = other ++ rest) :
    other.length ≤ old.length :=
  (length_le_of_foldl_longer found).2 other member rest apart stands

theorem not_stands_of_longestAt {table : Renames} {text old rest : Text}
    (missed : table.longestAt text = none) (member : old ∈ table.keys)
    (apart : startsWord rest = false) : text ≠ old ++ rest :=
  (missed_of_foldl_longer missed).2 old member rest apart

def scan (table : Renames) : Scan := fun text =>
  (table.longestAt text).map fun old => text.drop old.length

theorem pattern_eq (table : Renames) : pattern table = table.scan.atWordStart := by
  funext before text
  unfold pattern Scan.atWordStart Scan.notAfter
  split
  · rfl
  · unfold Scan.anywhere scan
    rw [Option.map_map]
    cases found : table.longestAt text with
    | none => rfl
    | some old =>
        obtain ⟨_member, rest, rfl, _apart⟩ := stands_of_longestAt found
        simp only [Option.map_some, Function.comp_apply, List.drop_left, List.length_append,
          Nat.add_sub_cancel_right]

theorem scan_eq_some {table : Renames} {text rest : Text} (found : table.scan text = some rest) :
    ∃ old ∈ table.keys, text = old ++ rest ∧ startsWord rest = false := by
  obtain ⟨old, longest, same⟩ := Option.map_eq_some_iff.mp found
  obtain ⟨member, other, rfl, apart⟩ := stands_of_longestAt longest
  rw [List.drop_left] at same
  rw [← same]
  exact ⟨old, member, rfl, apart⟩

private theorem reads_scan {table : Renames} (ones : ∀ old ∈ table.keys, IsOneWord old)
    (text rest : Text) :
    table.scan text = some rest ↔
      ∃ word, IsOneWord word ∧ word ∈ table.keys ∧ text = word ++ rest ∧
        startsWord rest = false := by
  constructor
  · intro found
    obtain ⟨old, member, same, apart⟩ := scan_eq_some found
    exact ⟨old, ones old member, member, same, apart⟩
  · rintro ⟨word, one, member, rfl, apart⟩
    cases found : table.scan (word ++ rest) with
    | none =>
        exact absurd rfl
          (not_stands_of_longestAt (Option.map_eq_none_iff.mp found) member apart)
    | some other =>
        obtain ⟨old, known, same, distant⟩ := scan_eq_some found
        rw [(Text.oneWord_append_inj one (ones old known) apart distant same).2]

theorem readsWord_scan {table : Renames} (ones : ∀ old ∈ table.keys, IsOneWord old) :
    table.scan.ReadsWord ∧ ∀ word, table.scan.accepts word = true ↔ word ∈ table.keys := by
  obtain ⟨reads, accepted⟩ := Scan.readsWord_of (reads_scan ones)
  refine ⟨reads, fun word => (accepted word).trans ?_⟩
  exact and_iff_right_of_imp (ones word)

/-- What becomes of a word of a text. -/
def applied (table : Renames) (text word : Text) : Text :=
  ((table.active text).lookup word).getD word

def OfWords (table : Renames) : Prop :=
  ∀ entry ∈ table, IsOneWord entry.1 ∧ isIdentifier entry.2 = true

theorem OfWords.active {table : Renames} (ofWords : table.OfWords) (text : Text) :
    (table.active text).OfWords :=
  fun entry member => ofWords entry (List.mem_filter.mp member).1

theorem OfWords.oneWord {table : Renames} (ofWords : table.OfWords) {old : Text}
    (member : old ∈ table.keys) : IsOneWord old := by
  obtain ⟨new, entry⟩ := mem_keys.mp member
  exact (ofWords _ entry).1

theorem mem_active_iff {table : Renames} {text old new : Text} (identifier : isIdentifier new = true) :
    (old, new) ∈ table.active text ↔ (old, new) ∈ table ∧ old ≠ new ∧ new ∉ words text := by
  unfold Renames.active
  rw [List.mem_filter]
  refine and_congr_right fun _member => ?_
  simp only [identifier, Bool.true_and, Bool.and_eq_true, bne_iff_ne, Bool.not_eq_true',
    List.contains_eq_mem, decide_eq_false_iff_not, mem_identifiers, and_true]

theorem OfWords.mem_active {table : Renames} (ofWords : table.OfWords) {text old new : Text} :
    (old, new) ∈ table.active text ↔ (old, new) ∈ table ∧ old ≠ new ∧ new ∉ words text := by
  constructor
  · intro active
    exact (mem_active_iff (ofWords _ (List.mem_filter.mp active).1).2).mp active
  · intro entry
    exact (mem_active_iff (ofWords _ entry.1).2).mpr entry

theorem applied_cases (table : Renames) (text word : Text) :
    (word, table.applied text word) ∈ table.active text ∨
      table.applied text word = word ∧ word ∉ (table.active text).keys := by
  unfold applied
  cases found : (table.active text).lookup word with
  | some new => exact .inl (mem_of_lookup found)
  | none => exact .inr ⟨rfl, lookup_eq_none_iff.mp found⟩

end Renames

open Renames (OfWords)

theorem tokens_rename {table : Renames} (ofWords : table.OfWords) (text : Text) :
    tokens (rename table text) = (tokens text).map (Token.map (table.applied text)) := by
  unfold rename Renames.applied
  split
  · next idle =>
      rw [idle]
      refine (List.map_id'' ?_ _).symm
      intro token
      cases token <;> rfl
  · next active _some =>
      have named := ofWords.active text
      obtain ⟨reads, accepted⟩ := Renames.readsWord_scan fun old member => named.oneWord member
      rw [Renames.pattern_eq, tokens_replace_of_readsWord reads]
      · refine congrArg (fun change => (tokens text).map (Token.map change)) (funext fun word => ?_)
        split
        · rfl
        · next other =>
            rw [Renames.lookup_eq_none_iff.mpr (mt (accepted word).mpr other)]
            rfl
      · intro word member
        cases found : (table.active text).lookup word with
        | none => exact absurd ((accepted word).mp member) (Renames.lookup_eq_none_iff.mp found)
        | some new => exact (isIdentifier_iff.mp (named _ (Renames.mem_of_lookup found)).2).1

theorem words_rename {table : Renames} (ofWords : table.OfWords) (text : Text) :
    words (rename table text) = (words text).map (table.applied text) :=
  Text.words_of_tokens_map (tokens_rename ofWords text)

/-! ### Tables of accesses -/

section
variable {table : Renames}

theorem rename_eq_replace (table : Renames) (text : Text) :
    rename table text = (Renames.pattern (table.active text)).replace
      (fun old => ((table.active text).lookup old).getD old) text := by
  unfold rename
  split
  · next idle =>
      rw [idle]
      refine (Pattern.replace_eq_self_of_absent ?_ _).symm
      intro front back _split
      unfold Renames.pattern
      split <;> rfl
  · rfl

theorem count_rename_le {mark : Char} (absent : ∀ entry ∈ table, mark ∉ entry.2) (text : Text) :
    (rename table text).count mark ≤ text.count mark := by
  rw [rename_eq_replace]
  apply Pattern.count_replace_le
  intro stretch _member
  cases found : (table.active text).lookup stretch with
  | none => exact Nat.le_refl _
  | some new =>
      have entry := (List.mem_filter.mp (Renames.mem_of_lookup found)).1
      rw [Option.getD_some, List.count_eq_zero.mpr (absent _ entry)]
      exact Nat.zero_le _

theorem count_rename_eq {mark : Char} (absent : ∀ entry ∈ table, mark ∉ entry.1 ∧ mark ∉ entry.2)
    (text : Text) : (rename table text).count mark = text.count mark := by
  rw [rename_eq_replace]
  apply Pattern.count_replace_eq
  intro stretch _member
  cases found : (table.active text).lookup stretch with
  | none => rfl
  | some new =>
      have entry := (List.mem_filter.mp (Renames.mem_of_lookup found)).1
      obtain ⟨before, after⟩ := absent _ entry
      rw [Option.getD_some, List.count_eq_zero.mpr after, List.count_eq_zero.mpr before]

theorem Renames.of_pattern {before : Option Char} {stretch rest : Text}
    (found : Renames.pattern table before (stretch ++ rest) = some stretch.length) :
    before.any isWord = false ∧ stretch ∈ table.keys ∧ startsWord rest = false := by
  unfold Renames.pattern at found
  split at found
  · cases found
  · next outside =>
      obtain ⟨old, longest, long⟩ := Option.map_eq_some_iff.mp found
      obtain ⟨member, behind, same, apart⟩ := Renames.stands_of_longestAt longest
      obtain ⟨rfl, rfl⟩ := List.append_inj same long.symm
      exact ⟨Bool.eq_false_iff.mpr outside, member, apart⟩

variable (opens : ∀ old ∈ table.keys, startsWord old = true)
include opens

theorem Renames.apart_pattern : (Renames.pattern table).Apart := by
  have consumes : table.scan.Consumes := by
    intro text rest found
    obtain ⟨old, member, same, _apart⟩ := Renames.scan_eq_some found
    refine ⟨old, ?_, same⟩
    intro empty
    have starts := opens old member
    rw [empty] at starts
    cases starts
  rw [Renames.pattern_eq]
  refine Pattern.apart_atWordStart consumes fun stretch rest found _ends => ?_
  obtain ⟨_old, _member, _same, apart⟩ := Renames.scan_eq_some found
  exact apart

theorem Renames.respects_pattern (new : Text → Text) (text : Text) :
    (Renames.pattern table).Respects new text := by
  refine ⟨?_, fun _inside found _ends => (Renames.of_pattern found).2.2⟩
  intro before stretch rest found _begins
  obtain ⟨_outside, member, _apart⟩ := Renames.of_pattern found
  have starts := opens stretch member
  cases stretch with
  | nil => cases starts
  | cons char stretch => exact starts

end

theorem Renames.not_mem_words_of_active {table : Renames} {text old new : Text}
    (active : (old, new) ∈ table.active text) (identifier : isIdentifier new = true) :
    new ∉ words text :=
  ((Renames.mem_active_iff identifier).mp active).2.2

theorem Renames.keys_active_subset (table : Renames) (text : Text) :
    (table.active text).keys ⊆ table.keys := by
  intro old member
  obtain ⟨new, entry⟩ := Renames.mem_keys.mp member
  exact Renames.mem_keys.mpr ⟨new, (List.mem_filter.mp entry).1⟩

theorem Renames.exists_lookup {table : Renames} {old : Text} (member : old ∈ table.keys) :
    ∃ new, table.lookup old = some new := by
  cases found : table.lookup old with
  | none => exact absurd member (Renames.lookup_eq_none_iff.mp found)
  | some new => exact ⟨new, rfl⟩

theorem Renames.pattern_eq_none_iff {table : Renames} {before : Option Char} {text : Text}
    (outside : before.any isWord = false) :
    Renames.pattern table before text = none ↔
      ∀ old ∈ table.keys, ∀ rest, startsWord rest = false → text ≠ old ++ rest := by
  unfold Renames.pattern
  rw [outside, if_neg Bool.false_ne_true, Option.map_eq_none_iff]
  constructor
  · intro missed old member rest apart
    exact Renames.not_stands_of_longestAt missed member apart
  · intro none
    refine Option.eq_none_iff_forall_ne_some.mpr fun old found => ?_
    obtain ⟨member, rest, same, apart⟩ := Renames.stands_of_longestAt found
    exact none old member rest apart same

/-- A word that no old name holds behind its start and no new name brings in is in the new text when
it stood where no access that is replaced begins. -/
theorem mem_words_rename_iff {table : Renames} {word text : Text}
    (opens : ∀ old ∈ table.keys, startsWord old = true)
    (inner : ∀ old ∈ table.keys, .word word ∉ (tokens old).tail)
    (brought : ∀ entry ∈ table, word ∉ words entry.2) :
    word ∈ words (rename table text) ↔ (Renames.pattern (table.active text)).Spares word text := by
  have opened : ∀ old ∈ (table.active text).keys, startsWord old = true :=
    fun old member => opens old (table.keys_active_subset text member)
  rw [rename_eq_replace]
  apply Pattern.mem_words_replace_iff (Renames.apart_pattern opened)
    (Renames.respects_pattern opened _ text)
  intro before stretch rest found
  obtain ⟨_outside, member, _apart⟩ := Renames.of_pattern found
  obtain ⟨new, looked⟩ := Renames.exists_lookup member
  refine ⟨inner stretch (table.keys_active_subset text member), ?_⟩
  rw [looked]
  exact brought _ (List.mem_filter.mp (Renames.mem_of_lookup looked)).1

theorem meetsWord_of_rename {table : Renames} {text : Text} {mark : Char}
    (opens : ∀ old ∈ table.keys, startsWord old = true) (absent : ∀ entry ∈ table, mark ∉ entry.2)
    (meets : Text.MeetsWord mark (rename table text)) : Text.MeetsWord mark text := by
  have opened : ∀ old ∈ (table.active text).keys, startsWord old = true :=
    fun old member => opens old (table.keys_active_subset text member)
  rw [rename_eq_replace] at meets
  apply Pattern.meetsWord_of_replace (Renames.respects_pattern opened _ text)
    (Renames.apart_pattern opened) _ meets
  intro before stretch rest found
  obtain ⟨new, looked⟩ := Renames.exists_lookup (Renames.of_pattern found).2.1
  rw [looked]
  exact absent _ (List.mem_filter.mp (Renames.mem_of_lookup looked)).1

/-- A rename that brings no word into a text finds none of the old names. -/
theorem not_standsIn_of_words_rename {table : Renames} {text : Text}
    (opens : ∀ old ∈ table.keys, startsWord old = true)
    (identifiers : ∀ entry ∈ table, isIdentifier entry.2 = true)
    (within : words (rename table text) ⊆ words text) :
    ∀ old ∈ (table.active text).keys, ¬ Text.StandsIn old text := by
  intro old member stands
  obtain ⟨front, back, whole, before, after⟩ := stands
  have opened : ∀ old ∈ (table.active text).keys, startsWord old = true :=
    fun old member => opens old (table.keys_active_subset text member)
  let pattern := Renames.pattern (table.active text)
  have apart : pattern.Apart := Renames.apart_pattern opened
  have found : ∃ stretch, .found stretch ∈ pattern.pieces text := by
    by_contra none
    have absent := (Pattern.cut_pieces apart.sound text).absent (not_exists.mp none)
    have missed := absent front (old ++ back) (by rw [whole, List.append_assoc])
    rw [Option.or_none] at missed
    exact (Renames.pattern_eq_none_iff before).mp missed old member back after rfl
  obtain ⟨stretch, piece⟩ := found
  obtain ⟨_last, _rest, matched⟩ := (Pattern.cut_pieces apart.sound text).matched piece
  obtain ⟨_outside, key, _apart⟩ := Renames.of_pattern matched
  obtain ⟨new, looked⟩ := Renames.exists_lookup key
  have entry := Renames.mem_of_lookup looked
  have identifier := identifiers _ (List.mem_filter.mp entry).1
  obtain ⟨parts, _parted, _lexed, changed, cuts⟩ := Pattern.tokens_replace
    (Renames.respects_pattern opened (fun old => ((table.active text).lookup old).getD old) text) apart
  have brought : new ∈ words (rename table text) := by
    rw [rename_eq_replace, Text.mem_words, ← changed]
    rw [← cuts] at piece
    obtain ⟨part, held, inside⟩ := List.mem_flatMap.mp piece
    refine List.mem_flatMap.mpr ⟨part, held, ?_⟩
    cases part with
    | kept token =>
        obtain ⟨_char, _held, impossible⟩ := List.mem_map.mp inside
        cases impossible
    | found text =>
        cases List.mem_singleton.mp inside
        rw [Part.newTokens, looked, Option.getD_some,
          Text.tokens_of_oneWord (isIdentifier_iff.mp identifier).1]
        exact List.mem_singleton.mpr rfl
  exact Renames.not_mem_words_of_active entry identifier (within brought)

theorem rename_eq_self_of_not_standsIn {table : Renames} {text : Text}
    (absent : ∀ old ∈ (table.active text).keys, ¬ Text.StandsIn old text) :
    rename table text = text := by
  rw [rename_eq_replace]
  refine Pattern.replace_eq_self_of_absent ?_ _
  intro front back whole
  refine Option.eq_none_iff_forall_ne_some.mpr fun length found => ?_
  rw [Option.or_none] at found
  unfold Renames.pattern at found
  split at found
  · cases found
  · next outside =>
      obtain ⟨old, longest, _long⟩ := Option.map_eq_some_iff.mp found
      obtain ⟨member, rest, same, apart⟩ := Renames.stands_of_longestAt longest
      refine absent old member ⟨front, rest, ?_, Bool.eq_false_iff.mpr outside, apart⟩
      rw [whole, same, List.append_assoc]

structure IsRenaming (Renamed : Text → Text → Prop) : Prop where
  oneWord {old new : Text} : Renamed old new → IsOneWord old
  identifier {old new : Text} : Renamed old new → isIdentifier new = true
  fresh {old new other next : Text} : Renamed old new → Renamed other next → new ≠ other

/-- Where a name would be renamed, its new name is in use already. -/
def Settled (Renamed : Text → Text → Prop) (text : Text) : Prop :=
  ∀ old new, Renamed old new → old ∈ words text → new ∈ words text

/-- The table holds the names of a text that are renamed, and no others. -/
structure Renames.Covers (table : Renames) (Renamed : Text → Text → Prop) (text : Text) : Prop where
  within {old new : Text} : (old, new) ∈ table → Renamed old new
  complete {old new : Text} : Renamed old new → old ∈ words text → (old, new) ∈ table

section
variable {Renamed : Text → Text → Prop} (proper : IsRenaming Renamed)
include proper

theorem IsRenaming.ofWords {table : Renames}
    (within : ∀ {old new : Text}, (old, new) ∈ table → Renamed old new) : table.OfWords :=
  fun _entry member => ⟨proper.oneWord (within member), proper.identifier (within member)⟩

theorem IsRenaming.count_rename_le {table : Renames}
    (within : ∀ {old new : Text}, (old, new) ∈ table → Renamed old new) {mark : Char}
    (apart : isWord mark = false) (text : Text) :
    (rename table text).count mark ≤ text.count mark :=
  Code.count_rename_le
    (fun _entry member => not_mem_of_isIdentifier apart (proper.identifier (within member))) text

theorem Renames.Covers.settled {table : Renames} {text : Text}
    (covers : table.Covers Renamed text) : Settled Renamed (rename table text) := by
  have ofWords := proper.ofWords covers.within
  intro old new renamed member
  rw [words_rename ofWords] at member ⊢
  obtain ⟨word, source, same⟩ := List.mem_map.mp member
  rcases table.applied_cases text word with active | ⟨stays, missing⟩
  · have renamed' := covers.within (ofWords.mem_active.mp active).1
    exact absurd same (proper.fresh renamed' renamed)
  · rw [stays] at same
    subst same
    have entry := covers.complete renamed source
    have used : new ∈ words text := by
      by_contra unused
      have apart : word ≠ new := fun equal => unused (equal ▸ source)
      exact missing (Renames.mem_keys.mpr ⟨new, ofWords.mem_active.mpr ⟨entry, apart, unused⟩⟩)
    refine List.mem_map.mpr ⟨new, used, ?_⟩
    rcases table.applied_cases text new with active | ⟨stays, _missing⟩
    · exact absurd rfl (proper.fresh renamed (covers.within (ofWords.mem_active.mp active).1))
    · exact stays

theorem Settled.rename_eq_self {table : Renames} {text : Text} (settled : Settled Renamed text)
    (within : ∀ {old new : Text}, (old, new) ∈ table → Renamed old new) :
    rename table text = text := by
  have ofWords := proper.ofWords within
  have same : (tokens text).map (Token.map (table.applied text)) = tokens text := by
    refine (List.map_congr_left ?_).trans (List.map_id _)
    intro token member
    cases token with
    | mark char => rfl
    | word word =>
        have source := Text.mem_words.mpr member
        rcases table.applied_cases text word with active | ⟨stays, _missing⟩
        · obtain ⟨entry, _apart, unused⟩ := ofWords.mem_active.mp active
          exact absurd (settled _ _ (within entry) source) unused
        · rw [Token.map, stays]
          rfl
  have spelled := congrArg Text.spell ((tokens_rename ofWords text).trans same)
  rwa [Text.spell_tokens, Text.spell_tokens] at spelled

end

/-- The second text is the first with words renamed, some of those that may be. -/
def Reworded (Renamed : Text → Text → Prop) (text other : Text) : Prop :=
  ∃ change, tokens other = (tokens text).map (Token.map change) ∧
    ∀ word, change word = word ∨ Renamed word (change word)

theorem IsRenaming.reworded {Renamed : Text → Text → Prop} (proper : IsRenaming Renamed)
    {table : Renames} (within : ∀ {old new : Text}, (old, new) ∈ table → Renamed old new)
    (text : Text) : Reworded Renamed text (rename table text) := by
  have ofWords := proper.ofWords within
  refine ⟨table.applied text, tokens_rename ofWords text, ?_⟩
  intro word
  rcases table.applied_cases text word with active | ⟨stays, _missing⟩
  · exact .inr (within (ofWords.mem_active.mp active).1)
  · exact .inl stays

theorem Reworded.mem_words {Renamed : Text → Text → Prop} {text other word : Text}
    (reworded : Reworded Renamed text other) (member : word ∈ words other) :
    word ∈ words text ∨ ∃ old ∈ words text, Renamed old word := by
  obtain ⟨change, same, changes⟩ := reworded
  rw [Text.words_of_tokens_map same] at member
  obtain ⟨old, source, rfl⟩ := List.mem_map.mp member
  rcases changes old with stays | renamed
  · rw [stays]
    exact .inl source
  · exact .inr ⟨old, source, renamed⟩

theorem Reworded.mem_words_of_mem {Renamed : Text → Text → Prop} {text other word : Text}
    (reworded : Reworded Renamed text other) (member : word ∈ words text) :
    word ∈ words other ∨ ∃ new ∈ words other, Renamed word new := by
  obtain ⟨change, same, changes⟩ := reworded
  have changed : change word ∈ words other := by
    rw [Text.words_of_tokens_map same]
    exact List.mem_map_of_mem member
  rcases changes word with stays | renamed
  · rw [stays] at changed
    exact .inl changed
  · exact .inr ⟨_, changed, renamed⟩

/-- Renaming other names keeps a text settled. -/
theorem Settled.reworded {Renamed Other : Text → Text → Prop} {text other : Text}
    (settled : Settled Renamed text) (reworded : Reworded Other text other)
    (apart : ∀ {old new name value : Text}, Renamed old new → Other name value →
      value ≠ old ∧ new ≠ name) : Settled Renamed other := by
  obtain ⟨change, same, changes⟩ := reworded
  intro old new renamed member
  rw [Text.words_of_tokens_map same] at member ⊢
  obtain ⟨word, source, equal⟩ := List.mem_map.mp member
  rcases changes word with stays | changed
  · rw [stays] at equal
    subst equal
    refine List.mem_map.mpr ⟨new, settled word new renamed source, ?_⟩
    rcases changes new with stays | changed
    · exact stays
    · exact absurd rfl (apart renamed changed).2
  · exact absurd equal (apart renamed changed).1

theorem Settled.of_words {Renamed : Text → Text → Prop} {text other : Text}
    (settled : Settled Renamed text) (same : words other = words text) : Settled Renamed other := by
  unfold Settled
  rw [same]
  exact settled

theorem Temporary.unique {old new other : Text} (first : Temporary old new)
    (second : Temporary old other) : new = other := by
  obtain ⟨digits, _number, rfl, rfl⟩ := first
  obtain ⟨numbers, _numeral, same, rfl⟩ := second
  rw [List.append_cancel_left same]

theorem isRenaming_temporary : IsRenaming Temporary where
  oneWord renamed := by
    obtain ⟨digits, ⟨_filled, each⟩, rfl, _same⟩ := renamed
    have letters : ∀ letter ∈ "_S".toList, isWord letter = true := by decide
    refine ⟨List.cons_ne_nil _ _, ?_⟩
    intro char member
    rcases List.mem_append.mp member with stem | digit
    · exact letters char stem
    · exact isWord_of_isDecimalDigit (each char digit)
  identifier renamed := by
    obtain ⟨digits, ⟨_filled, each⟩, _same, rfl⟩ := renamed
    have start : isIdentifierStart 't' = true := by decide
    refine isIdentifier_iff.mpr ⟨⟨List.cons_ne_nil _ _, ?_⟩, start⟩
    exact List.forall_mem_cons.mpr
      ⟨by decide, fun digit member => isWord_of_isDecimalDigit (each digit member)⟩
  fresh renamed others := by
    obtain ⟨digits, _number, _same, rfl⟩ := renamed
    obtain ⟨numbers, _numeral, rfl, _equal⟩ := others
    exact fun same => absurd (List.cons.inj same).1 (by decide)

theorem renameTemporaries_eq (text : Text) :
    ∃ table, renameTemporaries text = rename table text ∧ table.Covers Temporary text := by
  let table := Renames.collect id (fun old => 't' :: old.drop 2) (temporaries.occurrences text) []
  have within : ∀ {old new : Text}, (old, new) ∈ table → Temporary old new := by
    intro old new member
    rcases Renames.mem_collect member with ⟨word, found, same⟩ | impossible
    · obtain ⟨_member, value, digits, number, rfl, _equal⟩ := mem_temporaries.mp found
      cases same
      exact ⟨digits, number, rfl, rfl⟩
    · cases impossible
  refine ⟨table, rfl, within, ?_⟩
  intro old new renamed member
  have found := mem_temporaries.mpr ⟨member, new, renamed⟩
  obtain ⟨value, entry⟩ := Renames.mem_keys.mp (Renames.mem_keys_collect found [])
  rw [renamed.unique (within entry)]
  exact entry

theorem settled_renameTemporaries (text : Text) : Settled Temporary (renameTemporaries text) := by
  obtain ⟨table, same, covers⟩ := renameTemporaries_eq text
  rw [same]
  exact covers.settled isRenaming_temporary

theorem reworded_renameTemporaries (text : Text) :
    Reworded Temporary text (renameTemporaries text) := by
  obtain ⟨table, same, covers⟩ := renameTemporaries_eq text
  rw [same]
  exact isRenaming_temporary.reworded covers.within text

theorem count_renameTemporaries_le {mark : Char} (apart : isWord mark = false) (text : Text) :
    (renameTemporaries text).count mark ≤ text.count mark := by
  obtain ⟨table, same, covers⟩ := renameTemporaries_eq text
  rw [same]
  exact isRenaming_temporary.count_rename_le covers.within apart text

theorem renameTemporaries_eq_self {text : Text} (settled : Settled Temporary text) :
    renameTemporaries text = text := by
  obtain ⟨table, same, covers⟩ := renameTemporaries_eq text
  rw [same]
  exact settled.rename_eq_self isRenaming_temporary covers.within

end Code
end ShaderBridge
