import ShaderBridge.Proofs.Export.Preamble
import ShaderBridge.Proofs.Export.Shadow
set_option autoImplicit false

/-! The helper functions of a node. A function that a module defines before its entry function stays
introduced in the export whenever helper functions are written: in ShaderToy mode always, and in material
mode when the body calls a function whose head begins a line. Records and globals are left out
(`exportArtifact_unreal_keeps_functions`). -/

namespace ShaderBridge
namespace Export

open Attempt (map_eq_ok_iff)
open Code
open Text (Behind Blank IsOneWord endsWord startsWord lexemes words)

private def isInside (char : Char) : Bool := char != ';' && char != '{'

private theorem isInside_iff {text : Text} :
    (∀ char ∈ text, isInside char = true) ↔ ';' ∉ text ∧ '{' ∉ text := by
  unfold isInside
  simp only [Bool.and_eq_true, bne_iff_ne]
  constructor
  · intro each
    exact ⟨fun member => (each _ member).1 rfl, fun member => (each _ member).2 rfl⟩
  · rintro ⟨semicolon, brace⟩ char member
    exact ⟨ne_of_mem_of_not_mem member semicolon, ne_of_mem_of_not_mem member brace⟩

private theorem parametersAndBrace_eq (text : Text) : parametersAndBrace text =
    if (text.takeWhile isInside).contains ')' then Scan.literal "\x7b" (text.dropWhile isInside)
    else none := by
  have first := List.prefix_iff_eq_take.mp (List.takeWhile_prefix isInside (l := text))
  have behind : text.drop (text.takeWhile isInside).length = text.dropWhile isInside := by
    have cut := List.take_append_drop (text.takeWhile isInside).length text
    rw [← first] at cut
    exact List.append_cancel_left (cut.trans List.takeWhile_append_dropWhile.symm)
  rw [← behind]
  rfl

theorem parametersAndBrace_eq_some_iff {text rest : Text} :
    parametersAndBrace text = some rest ↔ ∃ inside, text = inside ++ '{' :: rest ∧ ')' ∈ inside ∧
      ';' ∉ inside ∧ '{' ∉ inside := by
  rw [parametersAndBrace_eq, Option.ite_none_right_eq_some, Scan.literal_eq_some_iff,
    List.contains_iff_mem]
  constructor
  · rintro ⟨closed, opened⟩
    refine ⟨text.takeWhile isInside, ?_, closed, isInside_iff.mp fun char member => ?_⟩
    · conv_lhs => rw [← List.takeWhile_append_dropWhile (p := isInside) (l := text), opened]
      rfl
    · exact List.mem_takeWhile_imp member
  · rintro ⟨inside, rfl, closed, outside⟩
    have all := isInside_iff.mpr outside
    rw [List.takeWhile_append_of_pos all, List.dropWhile_append_of_pos all]
    exact ⟨List.mem_append_left _ closed, rfl⟩

private theorem consumes_definitionHead : Scan.Consumes (Scan.blanks >=> Scan.oneOrMore isTypeChar
    >=> Scan.someBlanks >=> Scan.identifier >=> Scan.blanks >=> Scan.literal "("
    >=> parametersAndBrace) := by
  have parameters : Scan.Sound parametersAndBrace := by
    intro text rest found
    obtain ⟨inside, rfl, _inner⟩ := parametersAndBrace_eq_some_iff.mp found
    exact ⟨inside ++ ['{'], by simp⟩
  exact Scan.sound_blanks.andThen_consumes ((Scan.consumes_oneOrMore _).andThen
    ((Scan.consumes_oneOrMore _).sound.andThen (readsWord_identifier.consumes.sound.andThen
      (Scan.sound_blanks.andThen ((Scan.sound_literal _).andThen parameters)))))

private theorem head?_append_any {inClass : Char → Bool} {first rest : Text} (filled : first ≠ [])
    (each : ∀ char ∈ first, inClass char = false) : (first ++ rest).head?.any inClass = false := by
  cases first with
  | nil => exact absurd rfl filled
  | cons char first => exact each char List.mem_cons_self

/-- What is read as the head of a function: it begins a line, behind white space at most. -/
theorem definitionHead_eq_some_iff {before : Option Char} {stretch rest : Text} :
    definitionHead before (stretch ++ rest) = some stretch.length ↔
      before.any (· != '\n') = false ∧ ∃ blanks kind name head, stretch = blanks ++ head ∧
        Blank blanks ∧ IsHead kind name head := by
  refine (Pattern.notAfter_append_eq_some_iff consumes_definitionHead.sound).trans
    (and_congr_right fun _start => ?_)
  constructor
  · intro read
    obtain ⟨_, white, read⟩ := Scan.andThen_eq_some_iff.mp read
    obtain ⟨_, typed, read⟩ := Scan.andThen_eq_some_iff.mp read
    obtain ⟨_, gaps, read⟩ := Scan.andThen_eq_some_iff.mp read
    obtain ⟨_, named, read⟩ := Scan.andThen_eq_some_iff.mp read
    obtain ⟨_, space, read⟩ := Scan.andThen_eq_some_iff.mp read
    obtain ⟨_, opened, last⟩ := Scan.andThen_eq_some_iff.mp read
    obtain ⟨blanks, blank, whole, _dark⟩ := Scan.zeroOrMore_eq_some_iff.mp white
    obtain ⟨kind, filled, letters, rfl, _end⟩ := Scan.oneOrMore_eq_some_iff.mp typed
    obtain ⟨gap, some, clear, rfl, _solid⟩ := Scan.oneOrMore_eq_some_iff.mp gaps
    obtain ⟨name, _one, identifier, rfl, _apart⟩ := (readsWord_identifier _ _).mp named
    obtain ⟨pad, padded, rfl, _next⟩ := Scan.zeroOrMore_eq_some_iff.mp space
    obtain rfl := Scan.literal_eq_some_iff.mp opened
    obtain ⟨inside, rfl, inner⟩ := parametersAndBrace_eq_some_iff.mp last
    refine ⟨blanks, kind, name, kind ++ (gap ++ (name ++ (pad ++ '(' :: (inside ++ ['{'])))), ?_, blank,
      filled, letters, identifier, gap, pad, inside, rfl, some, clear, padded, inner⟩
    refine List.append_cancel_right (whole.trans ?_)
    simp
  · rintro ⟨blanks, kind, name, head, rfl, blank, shape⟩
    obtain ⟨gap, space, inside, rfl, filled, clear, padded, inner⟩ := shape.split
    have one := (isIdentifier_iff.mp shape.named).1
    have apart : startsWord (space ++ '(' :: (inside ++ '{' :: rest)) = false :=
      Text.startsWord_append_of_not padded.startsWord (by decide : isWord '(' = false)
    have whole : blanks ++ (kind ++ (gap ++ (name ++ (space ++ '(' :: (inside ++ ['{']))))) ++ rest =
        blanks ++ (kind ++ (gap ++ (name ++ (space ++ '(' :: (inside ++ '{' :: rest))))) := by
      simp
    rw [whole]
    refine Scan.andThen_eq_some_iff.mpr ⟨_, Scan.zeroOrMore_eq_some_iff.mpr ⟨blanks, blank, rfl,
      head?_append_any shape.filled fun char member => solid_of_isTypeChar (shape.type char member)⟩, ?_⟩
    refine Scan.andThen_eq_some_iff.mpr ⟨_, Scan.oneOrMore_eq_some_iff.mpr ⟨kind, shape.filled, shape.type,
      rfl, head?_append_any filled fun char member => isTypeChar_of_isBlank (clear char member)⟩, ?_⟩
    refine Scan.andThen_eq_some_iff.mpr ⟨_, Scan.oneOrMore_eq_some_iff.mpr ⟨gap, filled, clear, rfl,
      head?_append_any one.1 fun char member => isBlank_of_isWord (one.2 char member)⟩, ?_⟩
    refine Scan.andThen_eq_some_iff.mpr ⟨_, (readsWord_identifier _ _).mpr
      ⟨name, one, shape.named, rfl, apart⟩, ?_⟩
    refine Scan.andThen_eq_some_iff.mpr ⟨_, Scan.zeroOrMore_eq_some_iff.mpr ⟨space, padded, rfl,
      (by decide : isBlank '(' = false)⟩, ?_⟩
    refine Scan.andThen_eq_some_iff.mpr ⟨_, Scan.literal_eq_some_iff.mpr rfl, ?_⟩
    exact parametersAndBrace_eq_some_iff.mpr ⟨inside, rfl, inner⟩

theorem IsHead.definedName_eq {kind name head blanks : Text} (shape : IsHead kind name head)
    (blank : Blank blanks) : definedName (blanks ++ head) = name := by
  obtain ⟨gap, space, inside, rfl, filled, clear, padded, _inner⟩ := shape.split
  have one := (isIdentifier_iff.mp shape.named).1
  have skip : ∀ {inClass : Char → Bool} {first rest : Text}, first ≠ [] →
      (∀ char ∈ first, inClass char = false) → (first ++ rest).dropWhile inClass = first ++ rest := by
    intro inClass first rest filled each
    cases first with
    | nil => exact absurd rfl filled
    | cons char first => exact List.dropWhile_cons_of_neg (by simp [each char List.mem_cons_self])
  have ended : (space ++ '(' :: (inside ++ ['{'])).takeWhile isWord = [] := by
    have apart : startsWord (space ++ '(' :: (inside ++ ['{'])) = false :=
      Text.startsWord_append_of_not padded.startsWord (by decide : isWord '(' = false)
    cases text : space ++ '(' :: (inside ++ ['{']) with
    | nil => rfl
    | cons char rest =>
        rw [text] at apart
        exact List.takeWhile_cons_of_neg (Bool.eq_false_iff.mp apart)
  unfold definedName
  rw [List.dropWhile_append_of_pos blank,
    skip shape.filled fun char member => solid_of_isTypeChar (shape.type char member),
    List.dropWhile_append_of_pos shape.type, skip filled fun char member => ?_,
    List.dropWhile_append_of_pos clear, skip one.1 fun char member => ?_,
    List.takeWhile_append_of_pos one.2, ended, List.append_nil]
  · exact isBlank_of_isWord (one.2 char member)
  · exact isTypeChar_of_isBlank (clear char member)

/-- A head up to its parenthesis, behind which it ends no statement before its brace, and the last word
in front of it. -/
theorem IsHead.parts {kind name head : Text} (shape : IsHead kind name head) :
    ∃ declared inside, head = declared ++ '(' :: (inside ++ ['{']) ∧
      (∀ char ∈ declared, InDeclarator char) ∧ ';' ∉ inside ∧ '{' ∉ inside ∧
        ∀ front, ∃ early, lexemes (front ++ declared) = early ++ [.word name] := by
  obtain ⟨gap, space, inside, rfl, filled, clear, padded, _closed, semicolon, brace⟩ := shape.split
  have one := (isIdentifier_iff.mp shape.named).1
  refine ⟨kind ++ (gap ++ (name ++ space)), inside, by simp, ?_, semicolon, brace, fun front => ?_⟩
  · simp only [List.forall_mem_append]
    refine ⟨fun char member => .inr (shape.type char member), fun char member => .inl (clear char member),
      fun char member => .inr ?_, fun char member => .inl (padded char member)⟩
    unfold isTypeChar
    rw [one.2 char member, Bool.true_or, Bool.true_or]
  · have ends : endsWord (front ++ (kind ++ gap)) = false := by
      rw [← List.append_assoc, Text.endsWord_append _ filled]
      exact clear.endsWord
    refine ⟨lexemes (front ++ (kind ++ gap)), ?_⟩
    rw [show front ++ (kind ++ (gap ++ (name ++ space))) = front ++ (kind ++ gap) ++ name ++ space by simp,
      Text.lexemes_append_blank _ padded,
      Text.lexemes_append fun last => absurd (ends.symm.trans last) nofun]
    unfold Text.lexemes
    rw [Text.tokens_of_oneWord one]
    rfl

theorem Lined.exists_split {front : Text} (lined : Lined front) :
    ∃ line blanks, front = line ++ blanks ∧ Blank blanks ∧ line.getLast?.any (· != '\n') = false := by
  refine ⟨(front.reverse.dropWhile fun char => isBlank char && char != '\n').reverse,
    (front.reverse.takeWhile fun char => isBlank char && char != '\n').reverse, ?_, ?_, ?_⟩
  · rw [← List.reverse_append, List.takeWhile_append_dropWhile, List.reverse_reverse]
  · intro char member
    have passed := List.mem_takeWhile_imp (List.mem_reverse.mp member)
    exact (Bool.and_eq_true_iff.mp passed).1
  · unfold Lined Behind at lined
    rw [List.getLast?_reverse]
    cases first : (front.reverse.dropWhile fun char => isBlank char && char != '\n').head? with
    | none => rfl
    | some char =>
        rw [first] at lined
        obtain rfl := beq_iff_eq.mp lined
        rfl

private theorem flat_of_closed {first left blanks right whole : Text}
    (closed : Closed (first ++ left ++ blanks)) (blank : Blank blanks) (reached : right ≠ [])
    (cut : left ++ right = whole ++ ['{']) (semicolon : ';' ∉ whole) (brace : '{' ∉ whole) :
    '(' ∉ left := by
  intro opened
  have ended := closed.ended
  rw [List.append_assoc] at ended
  obtain ⟨early, mark, late, same, _stays, wanted, _rest⟩ :=
    ended.met (List.mem_append_left blanks opened) (by decide)
  have ender : mark = ';' ∨ mark = '{' := by simpa using wanted
  have placed : mark ∈ left := by
    have member : mark ∈ left ++ blanks := by
      rw [same]
      exact List.mem_append_right _ List.mem_cons_self
    refine (List.mem_append.mp member).resolve_right fun white => ?_
    rcases ender with rfl | rfl <;> exact absurd (blank _ white) (by decide)
  obtain ⟨more, rfl⟩ : ∃ more, right = more ++ ['{'] := by
    refine List.getLast?_eq_some_iff.mp ?_
    rw [← List.getLast?_append_of_ne_nil left reached, cut, List.getLast?_concat]
  rw [← List.append_assoc] at cut
  have inside : mark ∈ whole := List.append_cancel_right cut ▸ List.mem_append_left more placed
  rcases ender with rfl | rfl
  · exact semicolon inside
  · exact brace inside

/-- A function whose head begins a line is one of those that are read. -/
theorem HeadAt.mem_definedNames {kind name head helpers front : Text} (shape : IsHead kind name head)
    (place : HeadAt head helpers front) (lined : Lined front) :
    name ∈ (definitionHead.occurrences helpers).map definedName := by
  obtain ⟨⟨back, rfl⟩, closed, _apart⟩ := place
  obtain ⟨line, blanks, rfl, blank, start⟩ := lined.exists_split
  have sound : definitionHead.Sound := Pattern.sound_notAfter _ consumes_definitionHead
  have matched : definitionHead (line.getLast?.or none) (blanks ++ head ++ back) ≠ none := by
    rw [Option.or_none, definitionHead_eq_some_iff.mpr ⟨start, blanks, kind, name, head, rfl, blank, shape⟩]
    exact Option.some_ne_none _
  have split : line ++ blanks ++ (head ++ back) = line ++ (blanks ++ head ++ back) := by simp
  obtain ⟨first, left, right, behind, rfl, same, reached, member, found⟩ :=
    (Pattern.cut_pieces sound _).across split matched
  obtain ⟨_start, space, type, other, stretch, cut, white, read⟩ := definitionHead_eq_some_iff.mp found
  obtain ⟨declared, inside, rfl, letters, _semicolon, _brace, last⟩ := shape.parts
  obtain ⟨front, inner, rfl, plain, semicolon, brace, final⟩ := read.parts
  have level : '(' ∉ left := by
    have ended : ∀ mark : Char, ¬ InDeclarator mark → isBlank mark = false → mark ≠ '(' → mark ∉ inner →
        mark ∉ space ++ (front ++ '(' :: inner) := by
      intro mark outside dark other absent
      simp only [List.mem_append, List.mem_cons, not_or]
      exact ⟨fun held => absurd (dark.symm.trans (white _ held)) nofun, fun held => outside (plain _ held),
        other, absent⟩
    refine flat_of_closed closed blank reached (cut.trans ?_)
      (ended ';' (by decide) (by decide) (by decide) semicolon)
      (ended '{' (by decide) (by decide) (by decide) brace)
    simp
  have whole : (left ++ blanks ++ declared) ++ '(' :: (inside ++ ['{'] ++ back) =
      (space ++ front) ++ '(' :: (inner ++ ['{'] ++ behind) := by
    have text : left ++ (right ++ behind) = left ++ right ++ behind := by simp
    rw [← same, cut] at text
    simpa using text
  have equal : left ++ blanks ++ declared = space ++ front := by
    refine (Text.first_unique whole (fun char member => ?_) (beq_self_eq_true '(') (fun char member => ?_)
      (beq_self_eq_true '(')).1
    · refine beq_eq_false_iff_ne.mpr ?_
      rintro rfl
      simp only [List.mem_append] at member
      rcases member with (inside | white) | name
      · exact level inside
      · exact absurd (blank _ white) (by decide)
      · exact absurd (letters _ name) (by decide)
    · refine beq_eq_false_iff_ne.mpr ?_
      rintro rfl
      rcases List.mem_append.mp member with inside | name
      · exact absurd (white _ inside) (by decide)
      · exact absurd (plain _ name) (by decide)
  obtain ⟨early, ends⟩ := last (left ++ blanks)
  obtain ⟨late, again⟩ := final space
  rw [equal, again] at ends
  obtain rfl : other = name := by simpa using (List.append_inj' ends rfl).2
  exact List.mem_map.mpr ⟨left ++ right, Pattern.mem_occurrences.mpr member, cut ▸ read.definedName_eq white⟩

/-- A body that calls one of the functions that are read asks for the helper functions. -/
theorem callsAny_of_calls {name body helpers : Text} (filled : name ≠ [])
    (listed : name ∈ (definitionHead.occurrences helpers).map definedName) (calls : Calls name body) :
    callsAny body helpers = true := by
  obtain ⟨front, space, rest, split, apart, blank⟩ := calls.exists_split
  refine List.any_eq_true.mpr ⟨name, listed, ?_⟩
  have consumes : Scan.Consumes (Scan.literal name >=> Scan.blanks >=> Scan.literal "(") :=
    (Scan.consumes_literal filled).andThen (Scan.sound_blanks.andThen (Scan.sound_literal _))
  refine Pattern.occursIn_of_matched (Pattern.sound_notAfter _ consumes) split ?_
  have outside : front.getLast?.any isWord = false := apart
  have read : (Scan.literal name >=> Scan.blanks >=> Scan.literal "(")
      ((name ++ (space ++ ['('])) ++ rest) = some rest := by
    rw [show (name ++ (space ++ ['('])) ++ rest = name ++ (space ++ '(' :: rest) by simp]
    refine Scan.andThen_eq_some_iff.mpr ⟨_, Scan.literal_eq_some_iff.mpr rfl, ?_⟩
    exact Scan.andThen_eq_some_iff.mpr ⟨_, Scan.zeroOrMore_eq_some_iff.mpr ⟨space, blank, rfl,
      (by decide : isBlank '(' = false)⟩, Scan.literal_eq_some_iff.mpr rfl⟩
  have matched := (Pattern.notAfter_append_eq_some_iff consumes.sound).mpr ⟨outside, read⟩
  rw [show name ++ (space ++ '(' :: rest) = (name ++ (space ++ ['('])) ++ rest by simp]
  intro none
  exact absurd (none.symm.trans matched) nofun

/-- The word is one of the module's own: no part of an access to an input, and no temporary. -/
def IsOwnWord (mode : ExecutionMode) (preamble word : Text) : Prop :=
  (∀ entry ∈ nodeInputs mode preamble, word ∉ words entry.1) ∧ ∀ new, ¬ Temporary word new

private theorem nodeHelpers_ne_nil {mode : ExecutionMode} {inputs : Renames} {vectors helpers : List Text}
    {preamble body : Text} (helped : nodeHelpers mode inputs vectors preamble body = .ok helpers)
    (filled : helperFunctions preamble ≠ [])
    (needed : mode = .shaderToy ∨ callsAny body (helperFunctions preamble) = true) : helpers ≠ [] := by
  have asked : (!(helperFunctions preamble).isEmpty &&
      (mode == .shaderToy || callsAny body (helperFunctions preamble))) = true := by
    rw [Bool.and_eq_true, Bool.or_eq_true, beq_iff_eq]
    exact ⟨by simpa using filled, needed⟩
  unfold nodeHelpers at helped
  simp only at helped
  rw [if_pos asked] at helped
  obtain ⟨helper, _spelled, rfl⟩ := map_eq_ok_iff.mp helped
  exact List.cons_ne_nil _ _

private theorem introduces_of_mem_nodeHelpers {mode : ExecutionMode} {vectors helpers : List Text}
    {preamble body helper kind name head front : Text}
    (helped : nodeHelpers mode (nodeInputs mode preamble) vectors preamble body = .ok helpers)
    (member : helper ∈ helpers) (shape : IsPlainHead kind name head)
    (place : HeadAt head (helperFunctions preamble) front)
    (own : ∀ word ∈ name :: words kind, IsOwnWord mode preamble word) : Introduces kind name helper := by
  obtain ⟨known, spelled⟩ := spelled_of_mem_nodeHelpers helped member
  obtain ⟨back, stands⟩ := place.split
  obtain ⟨gap, space, inside, rfl, filled, clear, padded, _inner⟩ := shape.split
  have one := (isIdentifier_iff.mp shape.named).1
  have type : ∀ char ∈ kind, InType char := fun char member => isTypeChar_iff.mp (shape.type char member)
  have given : Introduces kind name (helperFunctions preamble) := by
    rw [stands, List.append_assoc, List.append_assoc, List.append_assoc, List.append_assoc]
    exact introduces_of_split one place.apart clear filled padded
  have renamed := given.rename (ofAccesses_nodeInputs mode preamble) fun entry known word member => by
    refine ⟨fun inside => ?_, ?_⟩
    · exact (own word (List.mem_cons_of_mem _ inside)).1 entry known member
    · rintro rfl
      exact (own word List.mem_cons_self).1 entry known member
  have spoken := renamed.renameTemporaries fun old new temporary => by
    refine ⟨fun inside => ?_, ?_⟩
    · exact (own old (List.mem_cons_of_mem _ inside)).2 new temporary
    · rintro rfl
      exact (own old List.mem_cons_self).2 new temporary
  have apart : ∀ word ∈ (["for", "while"] : List Text), word ∉ words kind ∧ word ≠ name := by
    intro word loop
    have foreign := shape.plain word (List.mem_append_right _ loop)
    refine ⟨fun inside => foreign (shape.mem_words_of_mem (List.mem_cons_of_mem _ inside)), ?_⟩
    rintro rfl
    exact foreign (shape.mem_words_of_mem List.mem_cons_self)
  exact (spoken.expandVectorCalls type _ _).boundLoops type apart spelled

section
variable {mode : ExecutionMode} {artifact exported : Text} {span : FunctionSpan}

/-- An export is the body of the entry function as it is returned, behind the header and the helper
functions. Each function of the preamble is introduced in it as soon as there are helper functions, as
in ShaderToy mode, and where the body calls it, if its head and the records begin lines. -/
theorem exportArtifact_unreal_keeps_functions
    (done : exportArtifact .unrealHlsl mode artifact = .ok exported)
    (found : findFunction (stripBookkeeping platformGuards artifact.normalizeNewlines)
      entryFunctions = some span) :
    let text := stripBookkeeping platformGuards artifact.normalizeNewlines
    let preamble := text.take span.start
    let inputs := nodeInputs mode preamble
    let entry := renameTemporaries (rename inputs ((text.take span.bodyEnd).drop span.bodyStart))
    let vectors := declaredVectors hlslVectors (nodeHeader mode ++ text) ++
      declaredVectors hlslVectors ((text.take span.bodyStart).drop span.start ++ entry)
    Placed Closed droppedWords preamble →
      ∃ body helpers, spellOut vectors entry = .ok body ∧
        nodeHelpers mode inputs vectors preamble (writeAsReturn body) = .ok helpers ∧
        exported = finish (Text.unlines ([nodeHeader mode, "// Shader logic"] ++ helpers ++
          [dedent (writeAsReturn body)])) ∧
        ∀ kind name head front, IsPlainHead kind name head → HeadAt head preamble front →
          RecordsEnd front → (∀ word ∈ name :: words kind, IsOwnWord mode preamble word) →
            (mode = .shaderToy ∨ helpers ≠ [] → Introduces kind name exported) ∧
            (Placed Lined recordWords preamble → Lined front → Calls name (writeAsReturn body) →
              Introduces kind name exported) := by
  intro text preamble inputs entry vectors closed
  obtain ⟨body, helpers, spelled, helped, laid⟩ := node_of_unreal done found
  refine ⟨body, helpers, spelled, helped, laid, fun kind name head front shape place records own => ?_⟩
  obtain ⟨left, stands, lined⟩ := place.exists_kept shape records closed
  have kept : helpers ≠ [] → Introduces kind name exported := by
    intro some
    obtain ⟨helper, member⟩ := List.exists_mem_of_ne_nil _ some
    have introduced := introduces_of_mem_nodeHelpers helped member shape stands own
    unfold Introduces
    rw [laid, lexemes_of_content_eq (content_finish _), Text.lexemes_unlines, List.flatMap_def]
    have listed : helper ∈ [nodeHeader mode, "// Shader logic"] ++ helpers ++ [dedent (writeAsReturn body)] :=
      List.mem_append_left _ (List.mem_append_right _ member)
    exact introduced.trans (List.infix_of_mem_flatten (List.mem_map_of_mem listed))
  have filled : helperFunctions preamble ≠ [] := by
    obtain ⟨back, split⟩ := stands.split
    rw [split]
    exact List.append_ne_nil_of_right_ne_nil _ (List.append_ne_nil_of_left_ne_nil shape.ne_nil _)
  refine ⟨?_, fun recordLines line calls => kept ?_⟩
  · rintro (toy | some)
    · exact kept (nodeHelpers_ne_nil helped filled (.inl toy))
    · exact kept some
  · refine nodeHelpers_ne_nil helped filled (.inr (callsAny_of_calls ?_ ?_ calls))
    · exact (isIdentifier_iff.mp shape.named).1.1
    · exact stands.mem_definedNames shape.toIsHead (lined recordLines line)

end

/-- A body calls the function of a module that has a record and a global, too. -/
theorem exportArtifact_unreal_keeps_functions_of_palette :
    let front : Text := "struct Wave_0\n\x7b\n    float rate_0;\n\x7d;\n\n" ++
      "static const float gain_0 = 2.0;\n\n"
    let head : Text := "float3 palette_0(float t_0)\n\x7b"
    let preamble := front ++ head ++ "\n    return float3(t_0, cos(t_0), 0.5);\n\x7d\n\n"
    let code : Text := "\n    float3 col_0 = palette_0(1.0);\n    return float4(col_0, 1.0);\n"
    let artifact := preamble ++ "float4 fragmentMain() : SV_TARGET\n\x7b" ++ code ++ "\x7d\n"
    let text := stripBookkeeping platformGuards artifact.normalizeNewlines
    findFunction text entryFunctions = some ⟨144, 179, 246, 247⟩ ∧ text.take 144 = preamble ∧
      Placed Closed droppedWords preamble ∧ Placed Lined recordWords preamble ∧
      IsPlainHead "float3" "palette_0" head ∧ HeadAt head preamble front ∧ RecordsEnd front ∧ Lined front ∧
      (∀ word ∈ "palette_0".toList :: words "float3", IsOwnWord .materialLibrary preamble word) ∧
      ∃ exported, exportArtifact .unrealHlsl .materialLibrary artifact = .ok exported ∧
        Introduces "float3" "palette_0" exported := by
  intro front head preamble code artifact text
  have plain : text = artifact := by
    -- a literal is spelled out once, or it is decoded each time a character of it is compared
    simp only [text, artifact, preamble, front, head, code]
    repeat rw [String.toList_ofList]
    decide +kernel
  obtain ⟨known, cut, entered, given⟩ :
      findFunction artifact entryFunctions = some ⟨144, 179, 246, 247⟩ ∧
        artifact.take 144 = preamble ∧
        renameTemporaries (rename (nodeInputs .materialLibrary preamble)
          ((artifact.take 246).drop 179)) = code ∧
        headerVectors ++ declaredVectors hlslVectors artifact ++
          declaredVectors hlslVectors ((artifact.take 179).drop 144 ++ code) =
            headerVectors ++ (["col_0", "col_0"] : List Text) := by
    simp only [artifact, preamble, front, head, code]
    repeat rw [String.toList_ofList]
    decide +kernel
  have found : findFunction text entryFunctions = some ⟨144, 179, 246, 247⟩ := by rw [plain, known]
  have early : text.take 144 = preamble := by rw [plain, cut]
  have closed : Placed Closed droppedWords preamble := by
    simp only [preamble, front, head]
    repeat rw [String.toList_ofList]
    decide +kernel
  have lined : Placed Lined recordWords preamble := by
    simp only [preamble, front, head]
    repeat rw [String.toList_ofList]
    decide +kernel
  have shape : IsPlainHead "float3" "palette_0" head :=
    { filled := by decide
      type := by decide
      named := by decide
      split := ⟨[' '], [], "float t_0)\n".toList, by decide, by decide,
        List.forall_mem_singleton.mpr (by decide), List.forall_mem_nil _, by decide, by decide, by decide⟩
      plain := by decide +kernel }
  have place : HeadAt head preamble front :=
    ⟨⟨"\n    return float3(t_0, cos(t_0), 0.5);\n\x7d\n\n".toList, List.append_assoc _ _ _⟩,
      by decide +kernel, by decide +kernel⟩
  have records : RecordsEnd front := by decide +kernel
  have line : Lined front := by decide +kernel
  have own : ∀ word ∈ "palette_0".toList :: words "float3", IsOwnWord .materialLibrary preamble word := by
    have accesses : ∀ word ∈ "palette_0".toList :: words "float3",
        ∀ entry ∈ nodeInputs .materialLibrary preamble, word ∉ words entry.1 := by
      simp only [preamble, front, head]
      repeat rw [String.toList_ofList]
      decide +kernel
    have first : ∀ word ∈ "palette_0".toList :: words "float3", word.head? ≠ some '_' := by decide
    refine fun word member => ⟨accesses word member, ?_⟩
    rintro new ⟨digits, _number, rfl, _new⟩
    exact first _ member rfl
  have spelling : spellOut (headerVectors ++ (["col_0", "col_0"] : List Text)) code = .ok code := by
    decide +kernel
  have helped : nodeHelpers .materialLibrary (nodeInputs .materialLibrary preamble)
      (headerVectors ++ (["col_0", "col_0"] : List Text)) preamble (writeAsReturn code) =
        .ok [head ++ "\n    return float3(t_0, cos(t_0), 0.5);\n\x7d"] := by
    simp only [preamble, front, head, code]
    repeat rw [String.toList_ofList]
    decide +kernel
  obtain ⟨exported, done⟩ : ∃ exported,
      exportArtifact .unrealHlsl .materialLibrary artifact = .ok exported :=
    ⟨_, exportArtifact_of_spelled plain known cut entered given spelling helped⟩
  obtain ⟨body, helpers, spelled, _helped, _laid, each⟩ :=
    exportArtifact_unreal_keeps_functions done found (early ▸ closed)
  change spellOut (declaredVectors hlslVectors (nodeHeader .materialLibrary ++ text) ++
    declaredVectors hlslVectors ((text.take 179).drop 144 ++ renameTemporaries (rename
      (nodeInputs .materialLibrary (text.take 144)) ((text.take 246).drop 179))))
      (renameTemporaries (rename (nodeInputs .materialLibrary (text.take 144))
        ((text.take 246).drop 179))) = .ok body at spelled
  rw [declaredVectors_nodeHeader_append, plain, cut, entered, given, spelling] at spelled
  obtain rfl := Except.ok.inj spelled
  have calls : Calls "palette_0" (writeAsReturn code) := by
    simp only [code]
    repeat rw [String.toList_ofList]
    decide +kernel
  have kept := each "float3" "palette_0" head front shape (early ▸ place) records (early ▸ own)
  exact ⟨found, early, closed, lined, shape, place, records, line, own, exported, done,
    kept.2 (early ▸ lined) line calls⟩

/-- A record and a global that a body reads are left out. -/
theorem exportArtifact_unreal_drops_record_and_global :
    let preamble : Text := "struct Wave_0\n\x7b\n    float rate_0;\n\x7d;\n\n" ++
      "static const float k_0 = 2.0;\n\n"
    let code : Text := "\n    Wave_0 w_0;\n    w_0.rate_0 = k_0;\n" ++
      "    return float4(w_0.rate_0, 0.0, 0.0, 1.0);\n"
    let artifact := preamble ++ "float4 fragmentMain() : SV_TARGET\n\x7b" ++ code ++ "\x7d\n"
    let returned : Text := "Wave_0 w_0;\nw_0.rate_0 = k_0;\nreturn float3(w_0.rate_0, 0.0, 0.0);"
    exportArtifact .unrealHlsl .materialLibrary artifact =
        .ok (finish (Text.unlines [nodeHeader .materialLibrary, "// Shader logic", returned])) ∧
      ∀ name ∈ (["Wave_0", "k_0"] : List Text), DeclaredIn name preamble ∧ name ∈ words code ∧
        name ∈ words returned ∧ ¬ DeclaredIn name returned ∧ ¬ name <:+: nodeHeader .materialLibrary := by
  intro preamble code artifact returned
  obtain ⟨plain, found, cut, entered, given⟩ :
      stripBookkeeping platformGuards artifact.normalizeNewlines = artifact ∧
        findFunction artifact entryFunctions = some ⟨69, 104, 189, 190⟩ ∧
        artifact.take 69 = preamble ∧
        renameTemporaries (rename (nodeInputs .materialLibrary preamble)
          ((artifact.take 189).drop 104)) = code ∧
        headerVectors ++ declaredVectors hlslVectors artifact ++
          declaredVectors hlslVectors ((artifact.take 104).drop 69 ++ code) = headerVectors := by
    simp only [artifact, preamble, code]
    repeat rw [String.toList_ofList]
    decide +kernel
  obtain ⟨spelling, written, bare, read⟩ : spellOut headerVectors code = .ok code ∧
      dedent (writeAsReturn code) = returned ∧ helperFunctions preamble = [] ∧
      ∀ name ∈ (["Wave_0", "k_0"] : List Text), isIdentifier name = true ∧
        name ∈ declaredWords .start (Text.tokens preamble) ∧ name ∈ words code ∧ name ∈ words returned ∧
          name ∉ declaredWords .start (Text.tokens returned) ∧ '_' ∈ name := by
    simp only [preamble, code, returned]
    repeat rw [String.toList_ofList]
    decide +kernel
  have header : '_' ∉ nodeHeader .materialLibrary := by
    unfold nodeHeader resolutionLine
    repeat rw [block_cons]
    rw [block_nil]
    decide +kernel
  refine ⟨?_, fun name listed => ?_⟩
  · rw [← written]
    have done := exportArtifact_of_spelled plain found cut entered given spelling
      (nodeHelpers_of_bare bare _ _ _ _)
    rw [List.append_nil, List.cons_append, List.cons_append, List.nil_append] at done
    exact done
  · obtain ⟨identifier, given, used, stays, undeclared, mark⟩ := read name listed
    have one : IsOneWord name := (isIdentifier_iff.mp identifier).1
    exact ⟨(declaredIn_iff one).mpr given, used, stays, mt (declaredIn_iff one).mp undeclared,
      fun inside => header (inside.subset mark)⟩

end Export
end ShaderBridge
