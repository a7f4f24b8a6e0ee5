import Mathlib.Data.List.TakeWhile
import ShaderBridge.Text.Blank
set_option autoImplicit false

/-! Trimming. A trimmed text begins and ends with no white space, and the trimmed form of a text is
the only trimmed text that white space around it makes the text (`trim_eq`). -/

namespace ShaderBridge
namespace Text

/-- White space only. -/
def Blank (text : Text) : Prop := ∀ char ∈ text, isBlank char = true

instance : DecidablePred Blank := fun text =>
  inferInstanceAs (Decidable (∀ char ∈ text, isBlank char = true))

theorem isBlankText_iff {text : Text} : text.isBlankText = true ↔ Blank text := List.all_eq_true

def Trimmed (text : Text) : Prop :=
  text.head?.any isBlank = false ∧ text.getLast?.any isBlank = false

theorem Blank.append {first rest : Text} (left : Blank first) (right : Blank rest) :
    Blank (first ++ rest) := by
  intro char member
  rcases List.mem_append.mp member with early | late
  · exact left char early
  · exact right char late

theorem Blank.reverse {text : Text} (blank : Blank text) : Blank text.reverse :=
  fun char member => blank char (List.mem_reverse.mp member)

private theorem head?_dropWhile (text : Text) :
    (text.dropWhile isBlank).head?.any isBlank = false := by
  have outside := List.head?_dropWhile_not isBlank text
  cases first : (text.dropWhile isBlank).head? with
  | none => rfl
  | some char =>
      rw [first] at outside
      exact outside

private theorem dropWhile_of_head? {text : Text} (outside : text.head?.any isBlank = false) :
    text.dropWhile isBlank = text := by
  cases text with
  | nil => rfl
  | cons char text => exact List.dropWhile_cons_of_neg (Bool.eq_false_iff.mp outside)

private theorem trimEnd_append {text after : Text} (ends : text.getLast?.any isBlank = false)
    (blank : Blank after) : trimEnd (text ++ after) = text := by
  unfold trimEnd
  rw [List.reverse_append, List.dropWhile_append_of_pos blank.reverse,
    dropWhile_of_head? (by rwa [List.head?_reverse]), List.reverse_reverse]

theorem trimEnd_append_of_not_blank {text : Text} (dark : ¬ Blank text) (front : Text) :
    trimEnd (front ++ text) = front ++ trimEnd text := by
  have filled : (text.reverse.dropWhile isBlank).isEmpty = false := by
    refine Bool.eq_false_iff.mpr fun empty => dark ?_
    have blank := List.dropWhile_eq_nil_iff.mp (List.isEmpty_iff.mp empty)
    exact fun char member => blank char (List.mem_reverse.mpr member)
  unfold trimEnd
  rw [List.reverse_append, List.dropWhile_append, filled]
  simp

theorem trimEnd_append_blank {blanks : Text} (blank : Blank blanks) (front : Text) :
    trimEnd (front ++ blanks) = trimEnd front := by
  unfold trimEnd
  rw [List.reverse_append, List.dropWhile_append_of_pos blank.reverse]

theorem trimEnd_prefix (text : Text) : trimEnd text <+: text := by
  rw [← List.reverse_suffix]
  unfold trimEnd
  rw [List.reverse_reverse]
  exact List.dropWhile_suffix isBlank

theorem trimEnd_blank {blanks : Text} (blank : Blank blanks) : trimEnd blanks = [] :=
  trimEnd_append_blank blank []

theorem trim_eq {before text after : Text} (first : Blank before) (trimmed : Trimmed text)
    (last : Blank after) : trim (before ++ text ++ after) = text := by
  unfold trim trimStart
  rw [List.append_assoc, List.dropWhile_append_of_pos first]
  cases text with
  | nil =>
      have empty : after.dropWhile isBlank = [] := List.dropWhile_eq_nil_iff.mpr last
      rw [List.nil_append, empty]
      rfl
  | cons char text =>
      rw [dropWhile_of_head? (show (char :: text ++ after).head?.any isBlank = false from trimmed.1),
        trimEnd_append trimmed.2 last]

private theorem trim_append_trailing (text : Text) :
    trim text ++ ((trimStart text).reverse.takeWhile isBlank).reverse = trimStart text := by
  unfold trim trimEnd
  rw [← List.reverse_append, List.takeWhile_append_dropWhile, List.reverse_reverse]

theorem trimmed_trim (text : Text) : Trimmed (trim text) := by
  constructor
  · have begins := head?_dropWhile text
    have same := trim_append_trailing text
    cases filled : trim text with
    | nil => rfl
    | cons char rest =>
        rw [filled] at same
        unfold trimStart at same
        rw [← same] at begins
        exact begins
  · unfold trim trimEnd
    rw [List.getLast?_reverse]
    exact head?_dropWhile _

theorem exists_trim (text : Text) :
    ∃ before after, Blank before ∧ Blank after ∧ text = before ++ trim text ++ after := by
  refine ⟨text.takeWhile isBlank, ((trimStart text).reverse.takeWhile isBlank).reverse,
    fun char member => List.mem_takeWhile_imp member,
    Blank.reverse fun char member => List.mem_takeWhile_imp member, ?_⟩
  rw [List.append_assoc, trim_append_trailing]
  exact List.takeWhile_append_dropWhile.symm

theorem trim_eq_self {text : Text} (trimmed : Trimmed text) : trim text = text := by
  have same := trim_eq (fun _char => nofun : Blank []) trimmed (fun _char => nofun : Blank [])
  rwa [List.nil_append, List.append_nil] at same

theorem trim_blank_append {before : Text} (blank : Blank before) (text : Text) :
    trim (before ++ text) = trim text := by
  obtain ⟨first, last, left, right, same⟩ := exists_trim text
  have whole := trim_eq (blank.append left) (trimmed_trim text) right
  rwa [List.append_assoc, List.append_assoc, ← List.append_assoc first, ← same] at whole

theorem trim_append_blank {after : Text} (text : Text) (blank : Blank after) :
    trim (text ++ after) = trim text := by
  obtain ⟨first, last, left, right, same⟩ := exists_trim text
  have whole := trim_eq left (trimmed_trim text) (right.append blank)
  rwa [← List.append_assoc, ← same] at whole

theorem trim_eq_nil_iff {text : Text} : trim text = [] ↔ Blank text := by
  constructor
  · intro empty
    obtain ⟨first, last, left, right, same⟩ := exists_trim text
    rw [empty, List.append_nil] at same
    rw [same]
    exact left.append right
  · intro blank
    have whole := trim_append_blank [] blank
    exact whole

theorem count_trim_le (text : Text) (char : Char) : text.trim.count char ≤ text.count char := by
  obtain ⟨before, after, _left, _right, same⟩ := exists_trim text
  have whole := congrArg (List.count char) same
  rw [List.count_append, List.count_append] at whole
  omega

private theorem infix_of_infix_blank_append {needle blanks text : Text} (filled : needle ≠ [])
    (starts : needle.head?.any isBlank = false) (blank : Blank blanks)
    (found : needle <:+: blanks ++ text) : needle <:+: text := by
  induction blanks with
  | nil => exact found
  | cons char blanks ih =>
      obtain ⟨white, rest⟩ := List.forall_mem_cons.mp blank
      rcases List.infix_cons_iff.mp found with here | later
      · cases needle with
        | nil => exact absurd rfl filled
        | cons first needle =>
            obtain ⟨rfl, _rest⟩ := List.cons_prefix_cons.mp here
            exact absurd (white.symm.trans starts) nofun
      · exact ih rest later

theorem infix_trim_of_infix {needle text : Text} (filled : needle ≠ []) (trimmed : Trimmed needle)
    (found : needle <:+: text) : needle <:+: text.trim := by
  obtain ⟨before, after, left, right, same⟩ := exists_trim text
  rw [same, List.append_assoc] at found
  have inner := infix_of_infix_blank_append filled trimmed.1 left found
  have turned := List.reverse_infix.mpr inner
  rw [List.reverse_append] at turned
  have ends : needle.reverse.head?.any isBlank = false := by
    rw [List.head?_reverse]
    exact trimmed.2
  exact List.reverse_infix.mp (infix_of_infix_blank_append
    (mt List.reverse_eq_nil_iff.mp filled) ends right.reverse turned)

end Text
end ShaderBridge
