import ShaderBridge.Proofs.Code.Reading
import ShaderBridge.Proofs.Export.Unreal
set_option autoImplicit false

/-! What a node body returns. The last write of the output color becomes a return only where it is the
last statement of all, or stands right in front of statements that only hand the color on: an
assignment behind other statements, in a block or by a compound operator leaves the body as it is,
without a return (`returns_writeAsReturn_iff`). The layout of an export and the declarations in front
of the body change nothing in that. -/

namespace ShaderBridge
namespace Export

open Attempt (bind_eq_ok_iff map_eq_ok_iff)
open Code
open Text (Blank StandsIn startsWord)

/-- A part between commas stands in the text as it is. -/
theorem standsIn_splitCommasFrom {depth : Int} {current text part : Text}
    (member : part ∈ splitCommasFrom depth current text) : StandsIn part (current.reverse ++ text) := by
  induction text generalizing depth current with
  | nil =>
      rw [List.mem_singleton.mp member]
      exact ⟨[], [], rfl, rfl, rfl⟩
  | cons char text ih =>
      have on : ∀ {depth : Int}, part ∈ splitCommasFrom depth (char :: current) text →
          StandsIn part (current.reverse ++ char :: text) := by
        intro depth later
        have inside := ih later
        rwa [List.reverse_cons, List.append_assoc] at inside
      rw [splitCommasFrom] at member
      split at member
      · exact on member
      · split at member
        · exact on member
        · split at member
          · next comma =>
              have mark : isWord char = false := comma.1 ▸ by decide
              rcases List.mem_cons.mp member with rfl | later
              · exact ⟨[], char :: text, rfl, rfl, mark⟩
              · refine (ih later).trans ⟨current.reverse ++ [char], [], by simp, ?_, rfl⟩
                rw [Text.endsWord_concat]
                exact mark
          · exact on member

theorem standsIn_splitArguments {text argument : Text} (member : argument ∈ splitArguments text) :
    StandsIn argument text := by
  unfold splitArguments at member
  split at member
  · cases member
  · obtain ⟨part, known, rfl⟩ := List.mem_map.mp member
    exact (Text.standsIn_trim part).trans (standsIn_splitCommasFrom known)

private theorem height_splitCommasFrom (current text : Text) :
    ∀ part ∈ (splitCommasFrom (height current.reverse) current text).dropLast, height part = 0 := by
  induction text generalizing current with
  | nil => exact nofun
  | cons char text ih =>
      have on : ∀ depth, depth = depthAfter char (height current.reverse) →
          ∀ part ∈ (splitCommasFrom depth (char :: current) text).dropLast, height part = 0 := by
        intro depth same
        have deeper : height (char :: current).reverse = depth := by
          rw [List.reverse_cons, height_append, same, depthAfter_eq]
          rfl
        rw [← deeper]
        exact ih (char :: current)
      rw [splitCommasFrom]
      unfold depthAfter at on
      split
      · next opens => exact on _ (if_pos opens).symm
      · next opens =>
          split
          · next closes => exact on _ ((if_neg opens).trans (if_pos closes)).symm
          · next closes =>
              split
              · next comma =>
                  have rest := ih []
                  rw [List.dropLast_cons_of_ne_nil (splitCommasFrom_ne_nil _ _ _), comma.2]
                  exact List.forall_mem_cons.mpr ⟨comma.2, rest⟩
              · exact on _ ((if_neg opens).trans (if_neg closes)).symm

private theorem inner_join {parts : List Text} (inner : ∀ part ∈ parts, Inner part) :
    Inner (Text.join ", " parts) := by
  have comma : Inner ", " := ⟨⟨by unfold Uncommented; decide, by decide⟩, by decide⟩
  induction parts with
  | nil => exact ⟨⟨.nil, nofun⟩, rfl⟩
  | cons part parts ih =>
      obtain ⟨first, rest⟩ := List.forall_mem_cons.mp inner
      cases parts with
      | nil =>
          have single : Text.join ", " [part] = part := List.append_nil part
          rw [single]
          exact first
      | cons next parts =>
          have behind := ih rest
          rw [Text.join_cons_cons]
          refine ⟨first.append (comma.append behind.toQuiet (.inl (by decide))) (.inr ?_), ?_⟩
          · exact ⟨by simp, by simp⟩
          · rw [height_append, height_append, first.level, comma.level, behind.level]
            rfl

private theorem quiet_of_marks {text : Text}
    (each : ∀ char ∈ text, char ≠ '/' ∧ char ≠ ';' ∧ char ≠ '}') : Quiet text := by
  refine ⟨?_, fun char member => (each char member).2⟩
  induction text with
  | nil => exact .nil
  | cons char text ih =>
      obtain ⟨first, rest⟩ := List.forall_mem_cons.mp each
      exact (ih rest).cons fun _next _begins slash => absurd slash first.1

private theorem inner_argument {text argument : Text} (quiet : Quiet text)
    (member : argument ∈ (splitArguments text).dropLast) : Inner argument := by
  unfold splitArguments at member
  split at member
  · cases member
  · rw [← List.map_dropLast] at member
    obtain ⟨part, known, rfl⟩ := List.mem_map.mp member
    have inside := (standsIn_splitCommasFrom (List.dropLast_sublist _ |>.subset known)).isInfix
    exact (⟨quiet.part inside, height_splitCommasFrom [] text part known⟩ : Inner part).trim

/-- A constructor call is cut down to its arguments but the last one. -/
theorem constructed_eq_some {expression color : Text}
    (found : truncateToRgb.constructed expression = some color) :
    ∃ inner, StandsIn inner expression ∧ ((splitArguments inner).dropLast = [color] ∨
      color = "float3(" ++ Text.join ", " (splitArguments inner).dropLast ++ ")") := by
  obtain ⟨opened, read, found⟩ := Option.bind_eq_some_iff.mp found
  obtain ⟨close, closed, made⟩ := Option.bind_eq_some_iff.mp found
  clear found
  obtain ⟨inner, rest, rfl, rfl, closes⟩ := closer?_eq_some rfl closed
  have parenthesis : Scan.EndsIn (fun char => isWord char = false) (Scan.literal "(") :=
    Scan.endsIn_literal (show "(".toList = [] ++ ['('] by decide) rfl
  have named : Scan.Sound (Scan.orElse (Scan.literal "float4") (Scan.literal "half4")) :=
    fun _text _rest found => (Scan.orElse_eq_some found).elim (Scan.sound_literal _ _ _)
      (Scan.sound_literal _ _ _)
  obtain ⟨front, char, rfl, mark⟩ :=
    named.andThen_endsIn (Scan.sound_blanks.andThen_endsIn parenthesis) _ _ read
  have apart : startsWord rest = false := by
    cases rest with
    | nil => rfl
    | cons char rest => exact isWord_of_isCloser closes
  refine ⟨inner, ⟨front ++ [char], rest, by simp, ?_, apart⟩, ?_⟩
  · rw [Text.endsWord_concat]
    exact mark
  · rw [Nat.add_sub_cancel, List.take_left] at made
    split at made
    · split at made
      · cases made
      · next single =>
          cases made
          exact .inl single
      · next several =>
          cases made
          exact .inr rfl
    · cases made

private theorem inner_constructed {expression color : Text} (inner : Inner expression)
    (made : truncateToRgb.constructed expression = some color) : Inner color := by
  obtain ⟨arguments, stands, shape⟩ := constructed_eq_some made
  have quiet := inner.part stands.isInfix
  rcases shape with single | rfl
  · exact inner_argument quiet (single ▸ List.mem_singleton.mpr rfl)
  · have joined := inner_join fun part member => inner_argument quiet member
    have opening : Quiet "float3(" := quiet_of_marks (by decide)
    have closing : Quiet ")" := quiet_of_marks (by decide)
    refine ⟨(opening.append joined.toQuiet (.inl (by decide))).append closing
      (.inr ⟨by decide, by decide⟩), ?_⟩
    rw [height_append, height_append, joined.level]
    decide

/-- The color that a value is cut down to is an inner text like the value. -/
theorem inner_truncateToRgb {value : Text} (inner : Inner value) : Inner (truncateToRgb value) := by
  have trimmed := inner.trim
  unfold truncateToRgb
  simp only
  cases made : truncateToRgb.constructed value.trim with
  | none =>
      rw [Option.getD_none]
      split
      · have swizzle : Quiet ".xyz" := quiet_of_marks (by decide)
        refine ⟨trimmed.append swizzle (.inr ⟨by decide, by decide⟩), ?_⟩
        rw [height_append, trimmed.level]
        decide
      · have opening : Quiet "(" := quiet_of_marks (by decide)
        have swizzle : Quiet ").xyz" := quiet_of_marks (by decide)
        refine ⟨(opening.append trimmed.toQuiet (.inl (by decide))).append swizzle
          (.inr ⟨by decide, by decide⟩), ?_⟩
        rw [height_append, height_append, trimmed.level]
        decide
  | some color => exact inner_constructed trimmed made

/-- The last statement of the text is a return. -/
def Returns (text : Text) : Prop :=
  ∃ last, (statements text).getLast? = some last ∧ leadIn text last = "return"

theorem returns_iff {text : Text} : Returns text ↔ (leads text).getLast? = some "return".toList := by
  rw [leads_eq, List.getLast?_map, Option.map_eq_some_iff]
  rfl

/-- The value that a statement assigns to the output color or returns, unless that is another name
of the output color. -/
def handedOn (statement : Text) : Option Text :=
  ((assignedOutput statement).orElse fun _ => returnedValue statement).filter fun value =>
    !outputNames.contains value.trim

/-- The last statement of the body hands the output color on, or gives it a value. -/
def EndsInColor (body : Text) : Prop :=
  ∃ last, (statements body).getLast? = some last ∧
    (isWriteOut last.text = true ∨ ∃ value, handedOn last.text = some value)

def handingOn (body : Text) : List Statement :=
  ((statements body).reverse.takeWhile fun statement => isWriteOut statement.text).reverse

/-- The statements in front of those that only hand the color on. -/
def settling (body : Text) : List Statement :=
  ((statements body).reverse.dropWhile fun statement => isWriteOut statement.text).reverse

theorem statements_split (body : Text) : statements body = settling body ++ handingOn body := by
  have split := List.takeWhile_append_dropWhile
    (p := fun statement => isWriteOut statement.text) (l := (statements body).reverse)
  have turned := congrArg List.reverse split
  rw [List.reverse_append, List.reverse_reverse] at turned
  exact turned.symm

theorem writeAsReturn_eq (body : Text) :
    writeAsReturn body =
      match (settling body).getLast?.bind fun last =>
          (handedOn last.text).map fun value => (last.start, value) with
      | some (start, value) =>
        body.take start ++ "return " ++ truncateToRgb value ++ ";" ++
          body.drop (((statements body).getLast?.map Statement.stop).getD 0)
      | none =>
        match handingOn body with
        | [] => body
        | first :: _ =>
          Text.trimEnd (body.take first.start) ++ "\nreturn " ++
            truncateToRgb (writtenName (handingOn body)) ++ ";\n" := by
  have taken : (statements body).take ((statements body).length - (handingOn body).length) =
      settling body := by
    conv_lhs => rw [statements_split body]
    rw [List.length_append, Nat.add_sub_cancel, List.take_left]
  have read : ∀ last : Statement,
      (((assignedOutput last.text).orElse fun _ => returnedValue last.text).bind fun value =>
        if outputNames.contains value.trim then none else some (last.start, value)) =
          (handedOn last.text).map fun value => (last.start, value) := by
    intro last
    unfold handedOn
    cases (assignedOutput last.text).orElse fun _ => returnedValue last.text with
    | none => rfl
    | some value =>
        rw [Option.bind_some, Option.filter_some]
        cases outputNames.contains value.trim <;> rfl
  unfold writeAsReturn
  change (match ((statements body).take ((statements body).length - (handingOn body).length)).getLast?.bind
      fun last => ((assignedOutput last.text).orElse fun _ => returnedValue last.text).bind fun value =>
        if outputNames.contains value.trim then none else some (last.start, value) with
    | some (start, value) => _
    | none => _) = _
  simp only [taken, read]
  rfl

private theorem returns_replaced {body value : Text} {before after : List Statement}
    {last : Statement} (split : statements body = before ++ last :: after)
    (inner : Inner (truncateToRgb value)) :
    Returns (body.take last.start ++ "return " ++ truncateToRgb value ++ ";" ++
      body.drop (((statements body).getLast?.map Statement.stop).getD 0)) := by
  obtain ⟨front, final, ends⟩ : ∃ front final, statements body = front ++ [final] := by
    have filled : statements body ≠ [] := by
      rw [split]
      exact List.append_ne_nil_of_right_ne_nil before (List.cons_ne_nil _ _)
    exact ⟨_, _, (List.dropLast_concat_getLast filled).symm⟩
  have stop : ((statements body).getLast?.map Statement.stop).getD 0 = final.stop := by
    rw [ends, List.getLast?_concat]
    rfl
  have read := Reader.read_return (ready_at split) inner
  rw [← Reader.read_append] at read
  have leads : leads (body.take last.start ++ ("return " ++ truncateToRgb value ++ ";") ++
      body.drop final.stop) = before.map (leadIn body) ++ ["return".toList] := by
    unfold Code.leads
    rw [Reader.read_append, read]
    exact leads_read_behind ends (Reader.awake_of_code rfl _)
      ⟨rfl, rfl, fun _none => rfl, .inl ⟨rfl, rfl⟩⟩
  rw [stop, returns_iff]
  simp only [List.append_assoc] at leads ⊢
  rw [leads, List.getLast?_concat]

theorem content_trimEnd (text : Text) : content text.trimEnd = content text := by
  have blank : Blank (text.reverse.takeWhile isBlank).reverse := by
    intro char member
    exact List.mem_takeWhile_imp (List.mem_reverse.mp member)
  have split : text = text.trimEnd ++ (text.reverse.takeWhile isBlank).reverse := by
    unfold Text.trimEnd
    rw [← List.reverse_append, List.takeWhile_append_dropWhile, List.reverse_reverse]
  conv_rhs => rw [split, content_append_blank _ blank]

theorem writtenName_mem (writeOuts : List Statement) : writtenName writeOuts ∈ outputNames := by
  unfold writtenName
  simp only
  cases found : writeOuts.findSome? fun statement =>
      (outputName.atWordStart.occurrences statement.text).getLast? with
  | none => exact List.mem_cons_self
  | some name =>
      obtain ⟨statement, _known, last⟩ := List.exists_of_findSome?_eq_some found
      have occurs := List.mem_of_getLast? last
      rw [occurrences_of_readsWord readsWord_outputName.1, List.mem_filter] at occurs
      exact (readsWord_outputName.2 name).mp occurs.2

private theorem returns_appended {body name : Text} {before after : List Statement}
    {first : Statement} (split : statements body = before ++ first :: after)
    (known : name ∈ outputNames) :
    Returns (Text.trimEnd (body.take first.start) ++ "\nreturn " ++ truncateToRgb name ++ ";\n") := by
  have inner : ∀ name ∈ outputNames, Inner (truncateToRgb name) := by
    intro name known
    have each : ∀ name ∈ outputNames, (truncateToRgb name).IsChain
        (fun first second => first = '/' → second ≠ '/' ∧ second ≠ '*') ∧
          (∀ char ∈ truncateToRgb name, char ≠ ';' ∧ char ≠ '}') ∧
            height (truncateToRgb name) = 0 := by
      decide +kernel
    obtain ⟨plain, unended, level⟩ := each name known
    exact ⟨⟨plain, unended⟩, level⟩
  let written := "return " ++ truncateToRgb name ++ ";"
  have same : content (Text.trimEnd (body.take first.start) ++ "\nreturn " ++ truncateToRgb name ++
      ";\n") = content (body.take first.start ++ '\n' :: (written ++ ['\n'])) := by
    have whole : Text.trimEnd (body.take first.start) ++ "\nreturn " ++ truncateToRgb name ++ ";\n" =
        Text.trimEnd (body.take first.start) ++ '\n' :: (written ++ ['\n']) := by
      simp only [written, List.append_assoc]
      rfl
    rw [whole, content_append_line_feed, content_append_line_feed (body.take first.start),
      content_trimEnd]
  obtain ⟨code, level, clause⟩ := ready_at split
  have between : (Reader.start.read (body.take first.start)).clause = .none ∨
      ∃ lead, (Reader.start.read (body.take first.start)).clause = .closed lead :=
    clause.imp And.left fun ⟨lead, closed, _same⟩ => ⟨lead, closed⟩
  have fed : (Reader.start.read (body.take first.start)).step '\n' =
      Reader.start.read (body.take first.start) := by
    unfold Reader.step
    rw [code]
    exact Reader.take_blank isBlank_line_feed between
  have read := Reader.read_return (ready_at split) (inner name known)
  rw [returns_iff, leads_of_content_eq same]
  unfold leads
  rw [Reader.read_append, Reader.read_cons, fed, Reader.read_append, read]
  rw [Reader.read_cons, Reader.read_nil, Reader.leads_step_line_feed]
  exact List.getLast?_concat

theorem isWriteOut_of_mem_handingOn {body : Text} {statement : Statement}
    (member : statement ∈ handingOn body) : isWriteOut statement.text = true :=
  List.mem_takeWhile_imp (p := fun statement : Statement => isWriteOut statement.text)
    (List.mem_reverse.mp member)

private theorem endsInColor_of_handingOn {body : Text} (some : handingOn body ≠ []) :
    EndsInColor body := by
  refine ⟨(handingOn body).getLast some, ?_, .inl ?_⟩
  · rw [statements_split body, List.getLast?_append_of_ne_nil _ some,
      List.getLast?_eq_some_getLast some]
  · exact isWriteOut_of_mem_handingOn (List.getLast_mem some)

private theorem endsInColor_iff_of_none {body : Text} (none : handingOn body = []) :
    EndsInColor body ↔
      ∃ last value, (settling body).getLast? = some last ∧ handedOn last.text = some value := by
  have whole : settling body = statements body := by
    rw [statements_split body, none, List.append_nil]
  constructor
  · rintro ⟨last, final, handsOn | ⟨value, handed⟩⟩
    · -- the last statement would be one of those that only hand the color on
      exfalso
      obtain ⟨front, same⟩ := List.getLast?_eq_some_iff.mp final
      unfold handingOn at none
      rw [same, List.reverse_concat, List.takeWhile_cons, if_pos handsOn] at none
      exact absurd (List.reverse_eq_nil_iff.mp none) (List.cons_ne_nil _ _)
    · exact ⟨last, value, whole ▸ final, handed⟩
  · rintro ⟨last, value, final, handed⟩
    exact ⟨last, whole ▸ final, .inr ⟨value, handed⟩⟩

/-- The body of a node returns if its last statement hands the output color on or gives it a value,
and if it is a return; it does not in any other case. -/
theorem returns_writeAsReturn_iff {body : Text}
    (quiet : ∀ last value, (settling body).getLast? = some last → handedOn last.text = some value →
      Inner value) :
    Returns (writeAsReturn body) ↔ EndsInColor body ∨ Returns body := by
  have split := statements_split body
  rw [writeAsReturn_eq]
  cases found : (settling body).getLast?.bind fun last =>
      (handedOn last.text).map fun value => (last.start, value) with
  | some entry =>
      obtain ⟨last, final, read⟩ := Option.bind_eq_some_iff.mp found
      obtain ⟨value, handed, same⟩ := Option.map_eq_some_iff.mp read
      subst same
      obtain ⟨front, settled⟩ := List.getLast?_eq_some_iff.mp final
      have placed : statements body = front ++ last :: handingOn body := by
        rw [split, settled, List.append_assoc]
        rfl
      have replaced := returns_replaced placed (inner_truncateToRgb (quiet last value final handed))
      refine iff_of_true replaced (.inl ?_)
      by_cases none : handingOn body = []
      · exact (endsInColor_iff_of_none none).mpr ⟨last, value, final, handed⟩
      · exact endsInColor_of_handingOn none
  | none =>
      cases handed : handingOn body with
      | nil =>
          refine (or_iff_right fun ends => ?_).symm
          obtain ⟨last, value, final, given⟩ := (endsInColor_iff_of_none handed).mp ends
          rw [final, Option.bind_some, given] at found
          cases found
      | cons first others =>
          have placed : statements body = settling body ++ first :: others := handed ▸ split
          refine iff_of_true (returns_appended placed (writtenName_mem _)) (.inl ?_)
          exact endsInColor_of_handingOn (handed ▸ List.cons_ne_nil _ _)

theorem writeAsReturn_eq_self {body : Text} (other : ¬ EndsInColor body) :
    writeAsReturn body = body := by
  have none : handingOn body = [] := by
    by_contra some
    exact other (endsInColor_of_handingOn some)
  have missing : ((settling body).getLast?.bind fun last =>
      (handedOn last.text).map fun value => (last.start, value)) = Option.none := by
    refine Option.eq_none_iff_forall_ne_some.mpr fun entry found => ?_
    obtain ⟨last, final, read⟩ := Option.bind_eq_some_iff.mp found
    obtain ⟨value, handed, _same⟩ := Option.map_eq_some_iff.mp read
    exact other ((endsInColor_iff_of_none none).mpr ⟨last, value, final, handed⟩)
  rw [writeAsReturn_eq, missing, none]

/-! ### Exports that return -/

/-- A text that ends between two statements, of which none is a return. -/
structure Standalone (text : Text) : Prop where
  ends : ((Reader.start.read text).step '\n').Ready (leads text)
  plain : "return".toList ∉ leads text

theorem nodeHelpers_eq_ok {mode : ExecutionMode} {inputs : Renames} {vectors helpers : List Text}
    {preamble body : Text} (helped : nodeHelpers mode inputs vectors preamble body = .ok helpers) :
    helpers = [] ∨ ∃ helper, helpers = [helper] := by
  unfold nodeHelpers at helped
  simp only at helped
  split at helped
  · obtain ⟨helper, _spelled, rfl⟩ := map_eq_ok_iff.mp helped
    exact .inr ⟨helper, rfl⟩
  · cases helped
    exact .inl rfl

def headerLeads (mode : ExecutionMode) : List Text :=
  ["float", "float2", "float3", "float3",
    match mode with
    | .shaderToy => "float3"
    | .materialLibrary => "float2",
    "float", "float", "float"]

private theorem standalone_header (mode : ExecutionMode) :
    Standalone (nodeHeader mode ++ "\n// Shader logic") ∧
      ((Reader.start.read (nodeHeader mode ++ "\n// Shader logic")).step '\n').clause = .none := by
  have read : (Reader.start.read (nodeHeader mode ++ "\n// Shader logic")).step '\n' =
      ⟨.code, 0, .none, headerLeads mode⟩ := by
    cases mode
    all_goals
      unfold nodeHeader resolutionLine headerLeads
      repeat rw [block_cons]
      rw [block_nil]
      repeat rw [String.toList_ofList]
      decide +kernel
  have types : leads (nodeHeader mode ++ "\n// Shader logic") = headerLeads mode := by
    unfold leads
    rw [← Reader.leads_step_line_feed, read]
    rfl
  have plain : "return".toList ∉ headerLeads mode := by
    cases mode <;> decide
  refine ⟨⟨?_, types ▸ plain⟩, by rw [read]⟩
  rw [read, types]
  exact ⟨rfl, rfl, .inl ⟨rfl, rfl⟩⟩

private theorem leads_behind {front text : Text} (alone : Standalone front)
    (apart : continuesDeclaration text = false) :
    leads (front ++ '\n' :: text) = leads front ++ leads text := by
  have paused : ((Reader.start.read front).step '\n').Paused :=
    Reader.paused_step (Reader.sound_read paused_start.sound front)
  rw [← leads_read_ready alone.ends paused apart]
  conv_lhs => unfold leads
  rw [Reader.read_append, Reader.read_cons]

private theorem standalone_behind {front text : Text} (first : Standalone front)
    (ended : ((Reader.start.read front).step '\n').clause = .none) (second : Standalone text) :
    Standalone (front ++ '\n' :: text) := by
  have started : (Reader.start.read front).step '\n' = Reader.start.after (leads front) := by
    obtain ⟨code, level, ⟨_held, done⟩ | ⟨lead, held, _same⟩⟩ := first.ends
    · generalize (Reader.start.read front).step '\n' = reader at code level ended done
      obtain ⟨mode, depth, clause, past⟩ := reader
      obtain rfl : mode = .code := code
      obtain rfl : depth = 0 := level
      obtain rfl : clause = .none := ended
      obtain rfl : past = leads front := done
      unfold Reader.after Reader.start
      rw [List.append_nil]
    · rw [ended] at held
      cases held
  have read : (Reader.start.read (front ++ '\n' :: text)).step '\n' =
      ((Reader.start.read text).step '\n').after (leads front) := by
    rw [Reader.read_append, Reader.read_cons, started, Reader.read_after, Reader.step_after]
  have counted : leads (front ++ '\n' :: text) = leads front ++ leads text := by
    conv_lhs => unfold leads
    rw [← Reader.leads_step_line_feed, read, Reader.calm_after, Reader.leads_after,
      Reader.leads_step_line_feed]
    rfl
  obtain ⟨code, level, clause⟩ := second.ends
  refine ⟨?_, ?_⟩
  · rw [read, counted]
    refine ⟨code, level, clause.imp ?_ ?_⟩
    · rintro ⟨held, done⟩
      exact ⟨held, congrArg (leads front ++ ·) done⟩
    · rintro ⟨lead, held, done⟩
      exact ⟨lead, held, (List.append_assoc _ _ _).trans (congrArg (leads front ++ ·) done)⟩
  · rw [counted, List.mem_append, not_or]
    exact ⟨first.plain, second.plain⟩

private theorem returns_node_iff {mode : ExecutionMode} {helpers : List Text} {returned : Text}
    (few : helpers = [] ∨ ∃ helper, helpers = [helper])
    (alone : ∀ helper ∈ helpers, Standalone helper)
    (apart : continuesDeclaration returned = false) :
    Returns (finish (Text.unlines
      ([nodeHeader mode, "// Shader logic"] ++ helpers ++ [dedent returned]))) ↔ Returns returned := by
  obtain ⟨header, ended⟩ := standalone_header mode
  obtain ⟨front, standalone, same⟩ : ∃ front, Standalone front ∧
      content (finish (Text.unlines
        ([nodeHeader mode, "// Shader logic"] ++ helpers ++ [dedent returned]))) =
        content (front ++ '\n' :: returned) := by
    have opening : content (nodeHeader mode ++ "\n// Shader logic") =
        content (nodeHeader mode) ++ content "// Shader logic" := content_append_line_feed _ _
    rcases few with rfl | ⟨helper, rfl⟩
    · refine ⟨_, header, ?_⟩
      rw [content_finish, content_unlines, content_append_line_feed, opening]
      simp [content_dedent]
    · refine ⟨_, standalone_behind header ended (alone helper (List.mem_singleton.mpr rfl)), ?_⟩
      rw [content_finish, content_unlines, content_append_line_feed, content_append_line_feed,
        opening]
      simp [content_dedent]
  rw [returns_iff, returns_iff, leads_of_content_eq same, leads_behind standalone apart]
  cases body : leads returned with
  | nil =>
      rw [List.append_nil]
      refine iff_of_false (fun final => ?_) nofun
      exact standalone.plain (List.mem_of_getLast? final)
  | cons first others => rw [List.getLast?_append_of_ne_nil _ (List.cons_ne_nil _ _)]

/-- The export of a module is the body of its entry function as it is returned, behind the header and
the helper functions. -/
theorem node_of_unreal {mode : ExecutionMode} {artifact exported : Text} {span : FunctionSpan}
    (done : unreal mode artifact = .ok exported) :
    let text := stripBookkeeping platformGuards artifact.normalizeNewlines
    findFunction text entryFunctions = some span →
      let inputs := nodeInputs mode (text.take span.start)
      let entry := renameTemporaries (rename inputs ((text.take span.bodyEnd).drop span.bodyStart))
      let vectors := declaredVectors hlslVectors (nodeHeader mode ++ text) ++
        declaredVectors hlslVectors ((text.take span.bodyStart).drop span.start ++ entry)
      ∃ body helpers, spellOut vectors entry = .ok body ∧
        nodeHelpers mode inputs vectors (text.take span.start) (writeAsReturn body) = .ok helpers ∧
          exported = finish (Text.unlines ([nodeHeader mode, "// Shader logic"] ++ helpers ++
            [dedent (writeAsReturn body)])) := by
  intro text found inputs entry vectors
  unfold unreal at done
  simp only at done
  split at done
  · next missing => exact absurd (found.symm.trans missing) nofun
  · next other known =>
      obtain rfl := Option.some.inj (found.symm.trans known)
      obtain ⟨body, spelled, rest⟩ := bind_eq_ok_iff.mp done
      obtain ⟨helpers, helped, same⟩ := bind_eq_ok_iff.mp rest
      exact ⟨body, helpers, spelled, helped, (Except.ok.inj same).symm⟩

/-- A node body that does not end in the output color is left without a return, unless it has one, and
one that does returns it, provided that the value opens no comment and ends no statement. An export
is that body behind the declarations of its inputs and its helper functions, and returns if the body
does, where the helpers are texts of their own. -/
theorem exportArtifact_unreal_returns_iff (mode : ExecutionMode) :
    (∀ body, (¬ EndsInColor body → writeAsReturn body = body) ∧
      ((∀ last value, (settling body).getLast? = some last → handedOn last.text = some value →
          Inner value) →
        (Returns (writeAsReturn body) ↔ EndsInColor body ∨ Returns body))) ∧
    ∀ artifact exported span, exportArtifact .unrealHlsl mode artifact = .ok exported →
      let text := stripBookkeeping platformGuards artifact.normalizeNewlines
      findFunction text entryFunctions = some span →
        let inputs := nodeInputs mode (text.take span.start)
        let entry := renameTemporaries
          (rename inputs ((text.take span.bodyEnd).drop span.bodyStart))
        let vectors := declaredVectors hlslVectors (nodeHeader mode ++ text) ++
          declaredVectors hlslVectors ((text.take span.bodyStart).drop span.start ++ entry)
        ∃ body helpers, spellOut vectors entry = .ok body ∧
          nodeHelpers mode inputs vectors (text.take span.start) (writeAsReturn body) = .ok helpers ∧
          exported = finish (Text.unlines ([nodeHeader mode, "// Shader logic"] ++ helpers ++
            [dedent (writeAsReturn body)])) ∧
          ((∀ helper ∈ helpers, Standalone helper) →
            continuesDeclaration (writeAsReturn body) = false →
              (Returns exported ↔ Returns (writeAsReturn body))) := by
  refine ⟨fun body => ⟨writeAsReturn_eq_self, returns_writeAsReturn_iff⟩, ?_⟩
  intro artifact exported span done text found inputs entry vectors
  obtain ⟨body, helpers, spelled, helped, laid⟩ := node_of_unreal done found
  refine ⟨body, helpers, spelled, helped, laid, fun alone apart => ?_⟩
  rw [laid]
  exact returns_node_iff (nodeHelpers_eq_ok helped) alone apart

/-- A color that is written in a block at the end is not returned; one that is written last is. -/
theorem exportArtifact_unreal_returns_iff_of_conditional_write :
    let last : Text := "    fragColor = float4(color, 1.0);\n"
    let conditional : Text :=
      "\n    if (x > 0.5)\n    \x7b\n        fragColor = color;\n    \x7d\n"
    let artifact : Text := "void frag_main()\n\x7b" ++ conditional ++ "\x7d\n"
    let text := stripBookkeeping platformGuards artifact.normalizeNewlines
    Returns (writeAsReturn last) ∧ writeAsReturn conditional = conditional ∧
      ∃ exported, exportArtifact .unrealHlsl .materialLibrary artifact = .ok exported ∧
        findFunction text entryFunctions = some ⟨0, 18, 75, 76⟩ ∧ ¬ Returns exported := by
  intro last conditional artifact text
  obtain ⟨bodies, exports⟩ := exportArtifact_unreal_returns_iff .materialLibrary
  have ended : EndsInColor last := by
    refine ⟨⟨4, 35, "fragColor = float4(color, 1.0);"⟩, by decide +kernel, .inr ?_⟩
    exact ⟨" float4(color, 1.0)", by decide +kernel⟩
  have inner : ∀ statement value, (settling last).getLast? = some statement →
      handedOn statement.text = some value → Inner value := by
    have known : (settling last).getLast?.bind (fun statement => handedOn statement.text) =
        some " float4(color, 1.0)".toList := by decide +kernel
    intro statement value final handed
    rw [final, Option.bind_some, handed] at known
    obtain rfl := Option.some.inj known
    exact ⟨⟨by unfold Uncommented; decide, by decide⟩, by decide⟩
  have other : ¬ EndsInColor conditional := by
    have none : ((statements conditional).getLast?.all fun last =>
        !isWriteOut last.text && (handedOn last.text).isNone) = true := by decide +kernel
    rintro ⟨final, same, ends⟩
    rw [same, Option.all_some, Bool.and_eq_true] at none
    rcases ends with handsOn | ⟨value, handed⟩
    · rw [handsOn] at none
      exact absurd none.1 nofun
    · rw [handed] at none
      exact absurd none.2 nofun
  have plain : ¬ Returns conditional := by
    rw [returns_iff]
    decide +kernel
  -- a literal is spelled out once, or it is decoded each time a character of it is compared
  obtain ⟨same, known, entered, given, spelling⟩ : text = artifact ∧
      findFunction artifact entryFunctions = some ⟨0, 18, 75, 76⟩ ∧
      renameTemporaries (rename (nodeInputs .materialLibrary [])
        ((artifact.take 75).drop 18)) = conditional ∧
      headerVectors ++ declaredVectors hlslVectors artifact ++
        declaredVectors hlslVectors ((artifact.take 18).drop 0 ++ conditional) = headerVectors ∧
      spellOut headerVectors conditional = .ok conditional := by
    simp only [text, artifact, conditional]
    repeat rw [String.toList_ofList]
    decide +kernel
  have found : findFunction text entryFunctions = some ⟨0, 18, 75, 76⟩ := by rw [same, known]
  have helped : ∀ body, nodeHelpers .materialLibrary (nodeInputs .materialLibrary []) headerVectors []
      body = .ok [] := nodeHelpers_of_bare rfl _ _ _
  obtain ⟨exported, done⟩ : ∃ exported,
      exportArtifact .unrealHlsl .materialLibrary artifact = .ok exported :=
    ⟨_, exportArtifact_of_spelled same known List.take_zero entered given spelling (helped _)⟩
  obtain ⟨body, helpers, spelled, helping, _laid, returned⟩ :=
    exports artifact exported _ done found
  change spellOut (declaredVectors hlslVectors (nodeHeader .materialLibrary ++ text) ++
    declaredVectors hlslVectors ((text.take 18).drop 0 ++ renameTemporaries (rename
      (nodeInputs .materialLibrary []) ((text.take 75).drop 18))))
      (renameTemporaries (rename (nodeInputs .materialLibrary [])
        ((text.take 75).drop 18))) = .ok body at spelled
  rw [declaredVectors_nodeHeader_append, same, entered, given, spelling] at spelled
  obtain rfl := Except.ok.inj spelled
  have empty : helpers = [] :=
    (Except.ok.inj ((nodeHelpers_of_bare rfl _ _ _ _).symm.trans helping)).symm
  refine ⟨((bodies last).2 inner).mpr (.inl ended), (bodies conditional).1 other, exported, done,
    found, fun returns => ?_⟩
  rw [returned (by rw [empty]; exact nofun) (by decide +kernel),
    (bodies conditional).2 fun final value known handed => ?_] at returns
  · exact returns.elim other plain
  · exact absurd ⟨final, value, known, handed⟩ fun found => other
      ((endsInColor_iff_of_none (by decide +kernel)).mpr found)

end Export
end ShaderBridge
