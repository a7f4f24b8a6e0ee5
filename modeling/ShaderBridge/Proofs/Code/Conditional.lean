import ShaderBridge.Proofs.Code.Directive
set_option autoImplicit false

/-! Conditional groups. Where the conditional directives of a text nest, its lines are those of just
one passage of lines and groups (`Passage.exists_of_nests`, `Passage.lines_injective`). Stripping
takes away the groups that name a guard, whole, and the bookkeeping lines outside them, and nothing
else (`stripBookkeeping_prunes`). -/

namespace ShaderBridge
namespace Code

open Text (IsOneWord lexemes lines unlines)

def directiveName (line : Text) : Option Text :=
  match lexemes line with
  | .mark '#' :: .word name :: _ => some name
  | _ => none

def OpensGroup (line : Text) : Prop := ∃ name ∈ directiveName line, name ∈ conditionals

def EndsGroup (line : Text) : Prop := directiveName line = some "endif"

/-- A directive with a name that begins like that of a conditional one is conditional. -/
def Regular (line : Text) : Prop :=
  ∀ name ∈ directiveName line, "if".toList <+: name → name ∈ conditionals

instance (line : Text) : Decidable (OpensGroup line) :=
  inferInstanceAs (Decidable (∃ name ∈ directiveName line, name ∈ conditionals))

instance (line : Text) : Decidable (EndsGroup line) := inferInstanceAs (Decidable (_ = _))

instance (line : Text) : Decidable (Regular line) :=
  inferInstanceAs (Decidable (∀ name ∈ directiveName line, "if".toList <+: name → name ∈ conditionals))

instance (lexemes : List Token) : Decidable (Bookkeeping lexemes) :=
  decidable_of_iff
    ([.mark '#', .word "line"] <+: lexemes ∨
      [.mark '#', .word "pragma", .word "pack_matrix"] <+: lexemes)
    (or_congr (exists_congr fun _others => eq_comm) (exists_congr fun _others => eq_comm))

instance (guards : List Text) (lexemes : List Token) : Decidable (OpensGuarded guards lexemes) :=
  decidable_of_iff
    (∃ opening ∈ conditionals, [.mark '#', .word opening] <+: lexemes ∧
      ∃ guard ∈ guards, .word guard ∈ lexemes.drop 2) <| by
    constructor
    · rintro ⟨opening, member, ⟨others, rfl⟩, named⟩
      exact ⟨opening, others, rfl, member, named⟩
    · rintro ⟨opening, others, rfl, member, named⟩
      exact ⟨opening, member, ⟨others, rfl⟩, named⟩

theorem directiveName_eq_some_iff {line name : Text} :
    directiveName line = some name ↔ ∃ others, lexemes line = .mark '#' :: .word name :: others := by
  unfold directiveName
  constructor
  · intro named
    split at named
    · next found others same =>
        obtain rfl := Option.some.inj named
        exact ⟨others, same⟩
    · cases named
  · rintro ⟨others, same⟩
    rw [same]
    rfl

theorem EndsGroup.not_opens {line : Text} (ends : EndsGroup line) : ¬ OpensGroup line := by
  rintro ⟨name, named, member⟩
  obtain rfl := Option.some.inj (named.symm.trans ends)
  exact absurd member (by decide)

/-- Lines whose conditional groups nest. -/
inductive Passage where
  | done
  | plain (line : Text) (apart : ¬ OpensGroup line ∧ ¬ EndsGroup line) (rest : Passage)
  | group (opening : Text) (opens : OpensGroup opening) (inner : Passage) (ending : Text)
      (ends : EndsGroup ending) (rest : Passage)

namespace Passage

def lines : Passage → List Text
  | done => []
  | plain line _ rest => line :: rest.lines
  | group opening _ inner ending _ rest => opening :: (inner.lines ++ ending :: rest.lines)

/-- The passage without the groups that name a guard and, elsewhere, without bookkeeping. -/
def pruned (guards : List Text) : Passage → Passage
  | done => done
  | plain line apart rest =>
    if Bookkeeping (lexemes line) then rest.pruned guards
    else plain line apart (rest.pruned guards)
  | group opening opens inner ending ends rest =>
    if OpensGuarded guards (lexemes opening) then rest.pruned guards
    else group opening opens (inner.pruned guards) ending ends (rest.pruned guards)

end Passage

/-- How many conditional groups are open behind the lines, some of them open in front; none if a
line ends a group where none is open. -/
def openBehind : Nat → List Text → Option Nat
  | depth, [] => some depth
  | depth, line :: lines =>
    if OpensGroup line then openBehind (depth + 1) lines
    else if EndsGroup line then if depth = 0 then none else openBehind (depth - 1) lines
    else openBehind depth lines

/-- Every end of a conditional group belongs to an opening before it, and every opening to an end. -/
def Nests (text : Text) : Prop := openBehind 0 (lines text) = some 0

instance (text : Text) : Decidable (Nests text) := inferInstanceAs (Decidable (_ = _))

namespace Passage

theorem openBehind_lines (passage : Passage) (depth : Nat) (rest : List Text) :
    openBehind depth (passage.lines ++ rest) = openBehind depth rest := by
  induction passage generalizing depth rest with
  | done => rw [lines, List.nil_append]
  | plain line apart others ih =>
      rw [lines, List.cons_append, openBehind, if_neg apart.1, if_neg apart.2, ih]
  | group opening opens inner ending ends others ihInner ih =>
      rw [lines, List.cons_append, openBehind, if_pos opens, List.append_assoc, ihInner,
        List.cons_append, openBehind, if_neg ends.not_opens, if_pos ends, if_neg (Nat.succ_ne_zero depth)]
      exact ih depth rest

private theorem exists_of_openBehind {depth : Nat} {source : List Text}
    (nests : openBehind depth source = some 0) :
    ∃ (first : Passage) (others : List (Text × Passage)), others.length = depth ∧
      (∀ other ∈ others, EndsGroup other.1) ∧
      source = first.lines ++ others.flatMap fun other => other.1 :: other.2.lines := by
  induction source generalizing depth with
  | nil =>
      obtain rfl : depth = 0 := Option.some.inj nests
      exact ⟨done, [], rfl, nofun, rfl⟩
  | cons line source ih =>
      rw [openBehind] at nests
      split at nests
      · next opens =>
          obtain ⟨inner, others, long, ends, rfl⟩ := ih nests
          obtain ⟨⟨ending, rest⟩, behind, rfl⟩ := List.exists_cons_of_length_eq_add_one long
          obtain ⟨closes, ends⟩ := List.forall_mem_cons.mp ends
          refine ⟨group line opens inner ending closes rest, behind, Nat.succ.inj long, ends, ?_⟩
          simp [lines]
      · next closed =>
          split at nests
          · next ends =>
              cases depth with
              | zero => cases nests
              | succ depth =>
                  rw [if_neg (Nat.succ_ne_zero depth), Nat.add_sub_cancel] at nests
                  obtain ⟨first, others, long, closes, rfl⟩ := ih nests
                  exact ⟨done, (line, first) :: others, congrArg Nat.succ long,
                    List.forall_mem_cons.mpr ⟨ends, closes⟩, rfl⟩
          · next inside =>
              obtain ⟨first, others, long, closes, rfl⟩ := ih nests
              exact ⟨plain line ⟨closed, inside⟩ first, others, long, closes, rfl⟩

theorem exists_of_nests {text : Text} (nests : Nests text) :
    ∃ passage : Passage, passage.lines = Text.lines text := by
  obtain ⟨passage, others, none, _ends, same⟩ := exists_of_openBehind nests
  obtain rfl := List.eq_nil_of_length_eq_zero none
  exact ⟨passage, by simpa using same.symm⟩

/-- What follows a passage is the end of a group around it, if anything. -/
private theorem append_inj {first second : Passage} {behind beyond : List Text}
    (ends : ∀ line ∈ behind.head?, EndsGroup line) (stops : ∀ line ∈ beyond.head?, EndsGroup line)
    (same : first.lines ++ behind = second.lines ++ beyond) :
    first = second ∧ behind = beyond := by
  induction first generalizing second behind beyond with
  | done =>
      cases second with
      | done => exact ⟨rfl, same⟩
      | plain line apart rest => exact absurd (ends line (congrArg List.head? same)) apart.2
      | group opening opens inner ending closes rest =>
          exact absurd opens (ends opening (congrArg List.head? same)).not_opens
  | plain line apart rest ih =>
      cases second with
      | done => exact absurd (stops line (congrArg List.head? same.symm)) apart.2
      | plain other distant others =>
          obtain ⟨rfl, later⟩ := List.cons.inj same
          obtain ⟨rfl, rfl⟩ := ih ends stops later
          exact ⟨rfl, rfl⟩
      | group opening opens inner ending closes others =>
          obtain ⟨rfl, _later⟩ := List.cons.inj same
          exact absurd opens apart.1
  | group opening opens inner ending closes rest ihInner ih =>
      cases second with
      | done => exact absurd opens (stops opening (congrArg List.head? same.symm)).not_opens
      | plain other distant others =>
          obtain ⟨rfl, _later⟩ := List.cons.inj same
          exact absurd opens distant.1
      | group other reopens within stop halts others =>
          obtain ⟨rfl, later⟩ := List.cons.inj same
          rw [List.append_eq, List.append_eq, List.append_assoc, List.append_assoc] at later
          have first : ∀ line ∈ (ending :: (rest.lines ++ behind)).head?, EndsGroup line := by
            rintro line ⟨⟩
            exact closes
          have second : ∀ line ∈ (stop :: (others.lines ++ beyond)).head?, EndsGroup line := by
            rintro line ⟨⟩
            exact halts
          obtain ⟨rfl, final⟩ := ihInner first second later
          obtain ⟨rfl, last⟩ := List.cons.inj final
          obtain ⟨rfl, rfl⟩ := ih ends stops last
          exact ⟨rfl, rfl⟩

theorem lines_injective : Function.Injective lines := by
  intro first second same
  have whole : first.lines ++ [] = second.lines ++ [] := congrArg (· ++ []) same
  have none : ∀ line ∈ ([] : List Text).head?, EndsGroup line := nofun
  exact (append_inj none none whole).1

end Passage

private theorem oneWord_if : IsOneWord "if" := ⟨by decide, List.all_eq_true.mp (by decide)⟩

private theorem oneWord_endif : IsOneWord "endif" := ⟨by decide, List.all_eq_true.mp (by decide)⟩

theorem endsGroup_iff {line : Text} :
    ((directive "endif" >=> Scan.wordEnd) line.trim).isSome = true ↔ EndsGroup line :=
  (directive_wordEnd_trim_iff oneWord_endif).trans directiveName_eq_some_iff.symm

theorem Regular.opens_iff {line : Text} (regular : Regular line) :
    (directive "if" line.trim).isSome = true ↔ OpensGroup line := by
  rw [directive_trim_iff oneWord_if]
  constructor
  · rintro ⟨name, others, same, begins⟩
    have named := directiveName_eq_some_iff.mpr ⟨others, same⟩
    exact ⟨name, named, regular name named begins⟩
  · rintro ⟨name, named, member⟩
    obtain ⟨others, same⟩ := directiveName_eq_some_iff.mp named
    have begins : ∀ name ∈ conditionals, "if".toList <+: name := by decide
    exact ⟨name, others, same, begins name member⟩

theorem OpensGuarded.opens {guards : List Text} {line : Text}
    (opens : OpensGuarded guards (lexemes line)) : OpensGroup line := by
  obtain ⟨name, others, same, member, _named⟩ := opens
  exact ⟨name, directiveName_eq_some_iff.mpr ⟨others, same⟩, member⟩

theorem not_bookkeeping {line name : Text} (named : directiveName line = some name)
    (apart : name ≠ "line".toList ∧ name ≠ "pragma".toList) : ¬ Bookkeeping (lexemes line) := by
  obtain ⟨others, same⟩ := directiveName_eq_some_iff.mp named
  rw [same]
  rintro (⟨_rest, equal⟩ | ⟨_rest, equal⟩)
  · exact apart.1 (Token.word.inj (List.cons.inj (List.cons.inj equal).2).1)
  · exact apart.2 (Token.word.inj (List.cons.inj (List.cons.inj equal).2).1)

theorem OpensGroup.not_bookkeeping {line : Text} (opens : OpensGroup line) :
    ¬ Bookkeeping (lexemes line) := by
  obtain ⟨name, named, member⟩ := opens
  have apart : ∀ name ∈ conditionals, name ≠ "line".toList ∧ name ≠ "pragma".toList := by decide
  exact Code.not_bookkeeping named (apart name member)

theorem EndsGroup.not_bookkeeping {line : Text} (ends : EndsGroup line) :
    ¬ Bookkeeping (lexemes line) :=
  Code.not_bookkeeping ends (by decide)

section
variable {guards : List Text} {line : Text} (rest : List Text)

section
variable (regular : Regular line) (depth : Nat)
include regular

theorem keptLines_opens (opens : OpensGroup line) :
    keptLines guards (depth + 1) (line :: rest) = keptLines guards (depth + 2) rest := by
  rw [keptLines, if_pos (regular.opens_iff.mpr opens)]

theorem keptLines_ends (ends : EndsGroup line) :
    keptLines guards (depth + 1) (line :: rest) = keptLines guards depth rest := by
  rw [keptLines, if_neg (mt regular.opens_iff.mp ends.not_opens), if_pos (endsGroup_iff.mpr ends)]

theorem keptLines_plain (apart : ¬ OpensGroup line ∧ ¬ EndsGroup line) :
    keptLines guards (depth + 1) (line :: rest) = keptLines guards (depth + 1) rest := by
  rw [keptLines, if_neg (mt regular.opens_iff.mp apart.1), if_neg (mt endsGroup_iff.mp apart.2)]

end

theorem keptLines_outside (ones : ∀ guard ∈ guards, IsOneWord guard) :
    keptLines guards 0 (line :: rest) =
      if OpensGuarded guards (lexemes line) then keptLines guards 1 rest
      else if Bookkeeping (lexemes line) then keptLines guards 0 rest
      else line :: keptLines guards 0 rest := by
  rw [keptLines]
  simp only [opensGuarded_iff ones, isBookkeeping_trim_iff]

end

namespace Passage

private theorem regular_group {opening ending : Text} {inner rest : List Text}
    (regular : ∀ line ∈ opening :: (inner ++ ending :: rest), Regular line) :
    Regular opening ∧ (∀ line ∈ inner, Regular line) ∧ Regular ending ∧
      ∀ line ∈ rest, Regular line := by
  obtain ⟨first, later⟩ := List.forall_mem_cons.mp regular
  obtain ⟨inside, behind⟩ := List.forall_mem_append.mp later
  exact ⟨first, inside, List.forall_mem_cons.mp behind⟩

theorem keptLines_inside {passage : Passage} (regular : ∀ line ∈ passage.lines, Regular line)
    (guards : List Text) (depth : Nat) (behind : List Text) :
    keptLines guards (depth + 1) (passage.lines ++ behind) = keptLines guards (depth + 1) behind := by
  induction passage generalizing depth behind with
  | done => rw [lines, List.nil_append]
  | plain line apart rest ih =>
      obtain ⟨here, later⟩ := List.forall_mem_cons.mp regular
      rw [lines, List.cons_append, keptLines_plain _ here _ apart, ih later]
  | group opening opens inner ending ends rest ihInner ih =>
      obtain ⟨first, inside, last, later⟩ := regular_group regular
      rw [lines, List.cons_append, keptLines_opens _ first _ opens, List.append_assoc,
        ihInner inside, List.cons_append, keptLines_ends _ last _ ends, ih later]

/-- Outside such groups, a passage is pruned. -/
theorem keptLines_passage {guards : List Text} (ones : ∀ guard ∈ guards, IsOneWord guard)
    {passage : Passage} (regular : ∀ line ∈ passage.lines, Regular line) (behind : List Text) :
    keptLines guards 0 (passage.lines ++ behind) =
      (passage.pruned guards).lines ++ keptLines guards 0 behind := by
  induction passage generalizing behind with
  | done => rw [pruned, lines, List.nil_append, List.nil_append]
  | plain line apart rest ih =>
      obtain ⟨_here, later⟩ := List.forall_mem_cons.mp regular
      rw [lines, List.cons_append, keptLines_outside _ ones, if_neg (mt OpensGuarded.opens apart.1),
        pruned, ih later]
      split
      · rfl
      · rfl
  | group opening opens inner ending ends rest ihInner ih =>
      obtain ⟨_first, inside, last, later⟩ := regular_group regular
      rw [lines, List.cons_append, keptLines_outside _ ones, if_neg opens.not_bookkeeping, pruned,
        List.append_assoc, List.cons_append]
      split
      · rw [keptLines_inside inside, keptLines_ends _ last _ ends, ih later]
      · rw [ihInner inside, keptLines_outside _ ones, if_neg (mt OpensGuarded.opens ends.not_opens),
          if_neg ends.not_bookkeeping, ih later, lines, List.cons_append, List.append_assoc,
          List.cons_append]

theorem pruned_sublist (guards : List Text) (passage : Passage) :
    (passage.pruned guards).lines.Sublist passage.lines := by
  induction passage with
  | done => exact .slnil
  | plain line apart rest ih =>
      rw [pruned]
      split
      · exact ih.cons line
      · exact ih.cons_cons line
  | group opening opens inner ending ends rest ihInner ih =>
      rw [pruned]
      split
      · exact ((ih.cons ending).trans (List.sublist_append_right inner.lines _)).cons opening
      · exact (ihInner.append (ih.cons_cons ending)).cons_cons opening

end Passage

theorem nests_unlines {passage : Passage} (flat : ∀ line ∈ passage.lines, '\n' ∉ line) :
    Nests (unlines passage.lines) := by
  unfold Nests
  cases filled : passage.lines with
  | nil => decide
  | cons line rest =>
      rw [← filled, Text.lines_unlines flat (by rw [filled]; exact List.cons_ne_nil _ _)]
      have whole := passage.openBehind_lines 0 []
      rwa [List.append_nil] at whole

/-- Stripping a text whose conditional directives nest takes the groups that name a guard out of it,
and bookkeeping elsewhere, and leaves the directives nested and nothing more to strip. -/
theorem stripBookkeeping_prunes {guards : List Text} {text : Text}
    (ones : ∀ guard ∈ guards, IsOneWord guard) (nests : Nests text)
    (regular : ∀ line ∈ lines text, Regular line) :
    ∃ passage : Passage, passage.lines = lines text ∧
      (∀ other : Passage, other.lines = lines text → other = passage) ∧
      stripBookkeeping guards text = unlines (passage.pruned guards).lines ∧
      Nests (stripBookkeeping guards text) ∧
      stripBookkeeping guards (stripBookkeeping guards text) = stripBookkeeping guards text := by
  obtain ⟨passage, same⟩ := Passage.exists_of_nests nests
  have stripped : stripBookkeeping guards text = unlines (passage.pruned guards).lines := by
    have kept := Passage.keptLines_passage ones (same ▸ regular) []
    rw [List.append_nil, same] at kept
    unfold stripBookkeeping
    rw [kept, keptLines, List.append_nil]
  refine ⟨passage, same, fun other equal => ?_, stripped, ?_, ?_⟩
  · exact Passage.lines_injective (equal.trans same.symm)
  · rw [stripped]
    refine nests_unlines fun line member => ?_
    have source := (passage.pruned_sublist guards).subset member
    rw [same] at source
    exact Text.line_feed_not_mem source
  · exact (plainLines_stripBookkeeping ones text).stripBookkeeping_eq_self ones

/-- A guarded group in an open one, with another group and a marker in it, and a marker behind. -/
def nestedGroups : Text :=
  "#ifdef A\n # if defined( GLSL )\n#ifndef B\n#line 3\n#endif\n#else\n#endif\nx;\n#endif\n#line 1\ny;"

theorem stripBookkeeping_prunes_of_nested_groups :
    (∀ guard ∈ ["HLSL".toList, "GLSL".toList], IsOneWord guard) ∧ Nests nestedGroups ∧
      (∀ line ∈ lines nestedGroups, Regular line) ∧
      (∃ passage : Passage, passage.lines = lines nestedGroups ∧
        stripBookkeeping ["HLSL", "GLSL"] nestedGroups =
          unlines (passage.pruned ["HLSL", "GLSL"]).lines) ∧
      stripBookkeeping ["HLSL", "GLSL"] nestedGroups = "#ifdef A\nx;\n#endif\ny;".toList ∧
      Nests "#ifdef A\nx;\n#endif\ny;".toList ∧
      stripBookkeeping ["HLSL", "GLSL"] "#ifdef A\nx;\n#endif\ny;".toList =
        "#ifdef A\nx;\n#endif\ny;".toList := by
  have ones : ∀ guard ∈ ["HLSL".toList, "GLSL".toList], IsOneWord guard := by
    unfold IsOneWord
    decide
  have nests : Nests nestedGroups := by decide
  have regular : ∀ line ∈ lines nestedGroups, Regular line := by decide
  have stripped : stripBookkeeping ["HLSL", "GLSL"] nestedGroups =
      "#ifdef A\nx;\n#endif\ny;".toList := by decide
  obtain ⟨passage, same, _only, pruned, nested, again⟩ := stripBookkeeping_prunes ones nests regular
  have left : stripBookkeeping ["HLSL".toList, "GLSL".toList] nestedGroups =
      "#ifdef A\nx;\n#endif\ny;".toList := stripped
  rw [left] at nested again
  exact ⟨ones, nests, regular, ⟨passage, same, pruned⟩, stripped, nested, again⟩

end Code
end ShaderBridge
