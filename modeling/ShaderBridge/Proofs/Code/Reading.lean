import Mathlib.Data.List.Chain
import ShaderBridge.Proofs.Code.Layout
import ShaderBridge.Proofs.Code.Reader
set_option autoImplicit false

/-! Reading texts that are put together. What is read in two parts is read by the second part from
where the first one stopped, so a text behind others is read as by itself, but for the statements in
front of it (`Reader.Ready.read`); and the layout of a text does not count (`leads_of_content_eq`). -/

namespace ShaderBridge
namespace Code

open Text (Blank)

namespace Reader

/-- The reader with more statements in front of those it has read. -/
def after (before : List Text) (reader : Reader) : Reader :=
  { reader with done := before ++ reader.done }

section
variable (before : List Text) (reader : Reader)

theorem mode_after : (reader.after before).mode = reader.mode := rfl

theorem clause_after : (reader.after before).clause = reader.clause := rfl

theorem settle_after (char : Char) :
    (reader.after before).settle char = (reader.settle char).after before := by
  obtain ⟨mode, depth, clause, done⟩ := reader
  cases clause with
  | none => rfl
  | begun lead ended => rfl
  | closed lead =>
      unfold settle after
      simp only
      split
      · rfl
      · split
        · rfl
        · rw [List.append_assoc]

theorem grow_after (char : Char) (lead : Text) (ended : Bool) :
    (reader.after before).grow char lead ended = (reader.grow char lead ended).after before := by
  unfold grow after
  simp only
  split
  · rw [List.append_assoc]
  · rfl

theorem take_after (char : Char) :
    (reader.after before).take char = (reader.take char).after before := by
  unfold take
  rw [settle_after, clause_after]
  cases (reader.settle char).clause with
  | none =>
      simp only
      split
      · rfl
      · exact grow_after before _ char [] false
  | begun lead ended => exact grow_after before _ char lead ended
  | closed lead => rfl

theorem interrupt_after : (reader.after before).interrupt = reader.interrupt.after before := by
  obtain ⟨mode, depth, clause, done⟩ := reader
  cases clause <;> rfl

theorem step_after (char : Char) :
    (reader.after before).step char = (reader.step char).after before := by
  have coded : ∀ mode, { reader.after before with mode := mode } =
      ({ reader with mode := mode } : Reader).after before := fun _mode => rfl
  unfold step
  rw [mode_after]
  cases reader.mode with
  | code =>
      simp only
      split
      · rw [settle_after]
        rfl
      · exact take_after before reader char
  | slash =>
      simp only
      split
      · rw [interrupt_after]
        rfl
      · split
        · rw [interrupt_after]
          rfl
        · rw [coded, take_after, take_after]
  | line =>
      simp only
      split
      · rw [coded, take_after]
      · rfl
  | block =>
      simp only
      split <;> rfl
  | star =>
      simp only
      split
      · rfl
      · split <;> rfl

theorem read_after (text : Text) :
    (reader.after before).read text = (reader.read text).after before := by
  induction text generalizing reader with
  | nil => rfl
  | cons char text ih => rw [read_cons, step_after, ih, read_cons]

theorem calm_after : (reader.after before).calm = reader.calm.after before := by
  have coded : ∀ mode, { reader.after before with mode := mode } =
      ({ reader with mode := mode } : Reader).after before := fun _mode => rfl
  unfold calm
  rw [mode_after]
  cases reader.mode with
  | slash =>
      simp only
      rw [coded, take_after]
  | code => rfl
  | line => rfl
  | block => rfl
  | star => rfl

theorem leads_after : (reader.after before).leads = before ++ reader.leads := by
  obtain ⟨mode, depth, clause, done⟩ := reader
  cases clause with
  | none => rfl
  | begun lead ended => exact List.append_assoc _ _ _
  | closed lead => exact List.append_assoc _ _ _

end

/-- From between two statements a text is read as by itself, unless it goes on with a declaration. -/
theorem Ready.read {reader : Reader} {done : List Text} (ready : reader.Ready done) {char : Char}
    (dark : isBlank char = false) (plain : ¬ (char = ';' ∨ char = ',')) (text : Text) :
    reader.read (char :: text) = (start.read (char :: text)).after done := by
  obtain ⟨code, level, clause⟩ := ready
  obtain ⟨mode, depth, held, past⟩ := reader
  obtain rfl : mode = .code := code
  obtain rfl : depth = 0 := level
  have settled : settle char ⟨.code, 0, held, past⟩ = start.after done := by
    have empty : start.after done = ⟨.code, 0, .none, done⟩ := by
      unfold start after
      rw [List.append_nil]
    rw [empty]
    rcases clause with ⟨rfl, rfl⟩ | ⟨lead, rfl, rfl⟩
    · rfl
    · unfold settle
      simp only
      rw [if_neg (Bool.eq_false_iff.mp dark), if_neg plain]
  have again : (start.after done).settle char = start.after done := settle_of_open char (.inl rfl)
  have same : step ⟨.code, 0, held, past⟩ char = (start.after done).step char := by
    by_cases opens : char = '/'
    · subst opens
      change { settle '/' ⟨.code, 0, held, past⟩ with mode := .slash } =
        { (start.after done).settle '/' with mode := .slash }
      rw [settled, again]
    · have first : step ⟨.code, 0, held, past⟩ char = take char ⟨.code, 0, held, past⟩ :=
        if_neg opens
      have second : (start.after done).step char = (start.after done).take char := if_neg opens
      rw [first, second, ← take_settle dark, settled]
  rw [read_cons, same, ← read_cons, read_after]

end Reader

namespace Reader

def Sound (reader : Reader) : Prop :=
  reader.mode = .code ∨ reader.mode = .slash ∨ ∀ lead, reader.clause ≠ .begun lead false

structure Paused (reader : Reader) : Prop where
  mode : reader.mode = .code ∨ reader.mode = .block
  ended : ∀ lead, reader.clause ≠ .begun lead false

theorem take_white {reader : Reader} {char : Char} (white : isBlank char = true) {lead : Text}
    {ended : Bool} (begun : reader.clause = .begun lead ended) :
    reader.take char = { reader with clause := .begun lead true } := by
  have outside : (!isWord char) = true := by
    rw [isWord_of_isBlank white]
    rfl
  have marks : char ≠ ';' ∧ char ≠ '}' := by
    refine ⟨?_, ?_⟩ <;> rintro rfl <;> exact absurd white (by decide)
  rw [take_of_open begun]
  unfold grow
  simp only
  rw [depthAfter_of_blank white, if_neg fun both => marks.1 both.2, if_neg fun both => marks.2 both.2,
    outside, Bool.or_true, if_pos rfl]

theorem clause_cases (reader : Reader) :
    (reader.clause = .none ∨ ∃ lead, reader.clause = .closed lead) ∨
      ∃ lead ended, reader.clause = .begun lead ended := by
  cases held : reader.clause with
  | none => exact .inl (.inl rfl)
  | begun lead ended => exact .inr ⟨lead, ended, rfl⟩
  | closed lead => exact .inl (.inr ⟨lead, rfl⟩)

theorem ended_take_white {reader : Reader} {char : Char} (white : isBlank char = true) (lead : Text) :
    (reader.take char).clause ≠ .begun lead false := by
  rcases reader.clause_cases with between | ⟨word, ended, begun⟩
  · rw [take_blank white between]
    rcases between with none | ⟨word, closed⟩
    · rw [none]
      exact nofun
    · rw [closed]
      exact nofun
  · rw [take_white white begun]
    exact nofun

theorem take_white_white {char next : Char} (white : isBlank char = true)
    (another : isBlank next = true) (reader : Reader) :
    (reader.take char).take next = reader.take next := by
  rcases reader.clause_cases with between | ⟨lead, ended, begun⟩
  · rw [take_blank white between]
  · rw [take_white white begun, take_white another begun]
    exact take_white another rfl

theorem leads_take_white {char : Char} (white : isBlank char = true) (reader : Reader) :
    (reader.take char).leads = reader.leads := by
  rcases reader.clause_cases with between | ⟨lead, ended, begun⟩
  · rw [take_blank white between]
  · rw [take_white white begun]
    unfold leads
    rw [begun]

theorem ended_interrupt (reader : Reader) (lead : Text) :
    reader.interrupt.clause ≠ .begun lead false := by
  rcases reader.clause_cases with (none | ⟨word, closed⟩) | ⟨word, ended, begun⟩
  · unfold interrupt
    rw [none]
    simp only
    rw [none]
    exact nofun
  · unfold interrupt
    rw [closed]
    simp only
    rw [closed]
    exact nofun
  · unfold interrupt
    rw [begun]
    exact nofun

theorem sound_step {reader : Reader} (sound : reader.Sound) (char : Char) :
    (reader.step char).Sound := by
  obtain ⟨mode, depth, clause, done⟩ := reader
  have comment : mode ≠ .code → mode ≠ .slash → ∀ lead, clause ≠ .begun lead false :=
    fun first second => (sound.resolve_left first).resolve_left second
  unfold step
  cases mode with
  | code =>
      simp only
      split
      · exact .inr (.inl rfl)
      · exact .inl (mode_take _ _)
  | slash =>
      simp only
      split
      · exact .inr (.inr (ended_interrupt _))
      · split
        · exact .inr (.inr (ended_interrupt _))
        · exact .inl (by rw [mode_take, mode_take])
  | line =>
      simp only
      split
      · exact .inl (mode_take _ _)
      · exact sound
  | block =>
      simp only
      split
      · exact .inr (.inr (comment nofun nofun))
      · exact sound
  | star =>
      simp only
      split
      · exact .inl rfl
      · split
        · exact sound
        · exact .inr (.inr (comment nofun nofun))

theorem sound_read {reader : Reader} (sound : reader.Sound) (text : Text) :
    (reader.read text).Sound := by
  induction text generalizing reader with
  | nil => exact sound
  | cons char text ih => exact ih (sound_step sound char)

theorem paused_step {reader : Reader} (sound : reader.Sound) : (reader.step '\n').Paused := by
  obtain ⟨mode, depth, clause, done⟩ := reader
  cases mode with
  | code => exact ⟨.inl (mode_take _ _), ended_take_white isBlank_line_feed⟩
  | slash =>
      refine ⟨.inl ?_, ended_take_white isBlank_line_feed⟩
      exact (mode_take _ _).trans (mode_take _ _)
  | line => exact ⟨.inl (mode_take _ _), ended_take_white isBlank_line_feed⟩
  | block => exact ⟨.inr rfl, (sound.resolve_left nofun).resolve_left nofun⟩
  | star => exact ⟨.inr rfl, (sound.resolve_left nofun).resolve_left nofun⟩

theorem Paused.step_white {reader : Reader} (paused : reader.Paused) {char : Char}
    (white : isBlank char = true) : reader.step char = reader := by
  obtain ⟨mode, depth, clause, done⟩ := reader
  have apart : char ≠ '/' ∧ char ≠ '*' := by
    refine ⟨?_, ?_⟩ <;> rintro rfl <;> exact absurd white (by decide)
  rcases paused.mode with rfl | rfl
  · have taken : step ⟨.code, depth, clause, done⟩ char = take char ⟨.code, depth, clause, done⟩ :=
      if_neg apart.1
    rw [taken]
    rcases clause_cases ⟨.code, depth, clause, done⟩ with between | ⟨lead, ended, begun⟩
    · exact take_blank white between
    · obtain rfl : ended = true := by
        by_contra open_
        exact paused.ended lead (Bool.eq_false_iff.mpr open_ ▸ begun)
      rw [take_white white begun]
      obtain rfl : clause = .begun lead true := begun
      rfl
  · exact if_neg apart.2

theorem Paused.read_blank {reader : Reader} (paused : reader.Paused) {blanks : Text}
    (blank : Blank blanks) : reader.read blanks = reader := by
  induction blanks with
  | nil => rfl
  | cons char blanks ih =>
      obtain ⟨white, rest⟩ := List.forall_mem_cons.mp blank
      rw [read_cons, paused.step_white white, ih rest]

theorem step_white_step {reader : Reader} (sound : reader.Sound) {char : Char}
    (white : isBlank char = true) : (reader.step char).step '\n' = reader.step '\n' := by
  by_cases feed : char = '\n'
  · rw [feed]
    exact (paused_step sound).step_white isBlank_line_feed
  · have apart : char ≠ '/' ∧ char ≠ '*' := by
      refine ⟨?_, ?_⟩ <;> rintro rfl <;> exact absurd white (by decide)
    obtain ⟨mode, depth, clause, done⟩ := reader
    have coded : ∀ reader : Reader, reader.mode = .code → reader.step '\n' = reader.take '\n' := by
      intro reader code
      unfold step
      rw [code]
      exact if_neg (by decide)
    cases mode with
    | code =>
        have taken : step ⟨.code, depth, clause, done⟩ char = take char ⟨.code, depth, clause, done⟩ :=
          if_neg apart.1
        rw [taken, coded _ (mode_take _ _), coded _ rfl]
        exact take_white_white white isBlank_line_feed _
    | slash =>
        have taken : step ⟨.slash, depth, clause, done⟩ char =
            (take '/' ⟨.code, depth, clause, done⟩).take char :=
          (if_neg apart.1).trans (if_neg apart.2)
        rw [taken, coded _ (by rw [mode_take, mode_take])]
        exact take_white_white white isBlank_line_feed _
    | line =>
        have stays : step ⟨.line, depth, clause, done⟩ char = ⟨.line, depth, clause, done⟩ :=
          if_neg feed
        rw [stays]
    | block =>
        have stays : step ⟨.block, depth, clause, done⟩ char = ⟨.block, depth, clause, done⟩ :=
          if_neg apart.2
        rw [stays]
    | star =>
        have back : step ⟨.star, depth, clause, done⟩ char = ⟨.block, depth, clause, done⟩ :=
          (if_neg apart.1).trans (if_neg apart.2)
        rw [back]
        rfl

theorem read_blank_step {reader : Reader} (sound : reader.Sound) {blanks : Text}
    (blank : Blank blanks) : (reader.read blanks).step '\n' = reader.step '\n' := by
  induction blanks generalizing reader with
  | nil => rfl
  | cons char blanks ih =>
      obtain ⟨white, rest⟩ := List.forall_mem_cons.mp blank
      rw [read_cons, ih (sound_step sound char) rest, step_white_step sound white]

theorem leads_step_line_feed (reader : Reader) :
    (reader.step '\n').calm.leads = reader.calm.leads := by
  obtain ⟨mode, depth, clause, done⟩ := reader
  have coded : ∀ reader : Reader, reader.mode = .code →
      (reader.take '\n').calm.leads = reader.leads := by
    intro reader code
    rw [calm_of_code ((mode_take reader '\n').trans code), leads_take_white isBlank_line_feed]
  cases mode with
  | code => exact coded _ rfl
  | slash => exact coded _ (mode_take _ _)
  | line => exact coded _ rfl
  | block => rfl
  | star => rfl

def readLine (reader : Reader) (line : Text) : Reader := (reader.read line).step '\n'

theorem Paused.sound {reader : Reader} (paused : reader.Paused) : reader.Sound := .inr (.inr paused.ended)

theorem Paused.readLine {reader : Reader} (paused : reader.Paused) (line : Text) :
    (reader.readLine line).Paused := paused_step (sound_read paused.sound line)

theorem Paused.readLine_trim {reader : Reader} (paused : reader.Paused) (line : Text) :
    reader.readLine line = reader.readLine line.trim := by
  obtain ⟨before, after, left, right, same⟩ := Text.exists_trim line
  unfold Reader.readLine
  conv_lhs => rw [same]
  rw [read_append, read_append, paused.read_blank left,
    read_blank_step (sound_read paused.sound _) right]

theorem Paused.read_lines {reader : Reader} (paused : reader.Paused) (text : Text) :
    (reader.read text).step '\n' = (content text).foldl Reader.readLine reader := by
  have single : ∀ {reader : Reader}, reader.Paused → ∀ line : Text, '\n' ∉ line →
      reader.readLine line = (content line).foldl Reader.readLine reader := by
    intro reader paused line flat
    unfold content
    rw [Text.lines_of_flat flat, List.map_singleton, paused.readLine_trim]
    cases line.trim with
    | nil => exact paused.step_white isBlank_line_feed
    | cons char rest => rfl
  induction text using Text.lines_induction generalizing reader with
  | last line flat => exact single paused line flat
  | first line rest flat ih =>
      have whole : reader.read (line ++ '\n' :: rest) = (reader.readLine line).read rest :=
        read_append reader line ('\n' :: rest)
      rw [whole, ih (paused.readLine line), content_append_line_feed, List.foldl_append,
        single paused line flat]

end Reader

theorem paused_start : Reader.start.Paused := ⟨.inl rfl, nofun⟩

theorem leads_eq_content (text : Text) :
    leads text = ((content text).foldl Reader.readLine Reader.start).calm.leads := by
  rw [← paused_start.read_lines, Reader.leads_step_line_feed]
  rfl

theorem leads_of_content_eq {text other : Text} (same : content text = content other) :
    leads text = leads other := by
  rw [leads_eq_content, leads_eq_content, same]

/-- Behind other statements a text adds those it has by itself, unless it goes on with the last of
them. -/
theorem leads_read_ready {reader : Reader} {done : List Text} (ready : reader.Ready done)
    (paused : reader.Paused) {text : Text} (apart : continuesDeclaration text = false) :
    (reader.read text).calm.leads = done ++ leads text := by
  have blank : Blank (text.takeWhile isBlank) := fun _char => List.mem_takeWhile_imp
  have split : text = text.takeWhile isBlank ++ text.dropWhile isBlank :=
    List.takeWhile_append_dropWhile.symm
  have skipped : ∀ {reader : Reader}, reader.Paused →
      reader.read text = reader.read (text.dropWhile isBlank) := by
    intro reader paused
    conv_lhs => rw [split]
    rw [Reader.read_append, paused.read_blank blank]
  have start : leads text = (Reader.start.read (text.dropWhile isBlank)).calm.leads := by
    rw [← skipped paused_start]
    rfl
  rw [skipped paused, start]
  cases behind : text.dropWhile isBlank with
  | nil =>
      obtain ⟨code, _level, ⟨held, same⟩ | ⟨lead, held, same⟩⟩ := ready
      · rw [Reader.read_nil, Reader.calm_of_code code]
        unfold Reader.leads
        rw [held]
        exact same.trans (List.append_nil done).symm
      · rw [Reader.read_nil, Reader.calm_of_code code]
        unfold Reader.leads
        rw [held]
        exact same.trans (List.append_nil done).symm
  | cons char rest =>
      have first := List.head?_dropWhile_not isBlank text
      rw [behind] at first
      have dark : isBlank char = false := by simpa using first
      have whole : continuesDeclaration text = continuesDeclaration (char :: rest) := by
        have again : (char :: rest).dropWhile isBlank = char :: rest :=
          List.dropWhile_cons_of_neg (Bool.eq_false_iff.mp dark)
        unfold continuesDeclaration Text.trimStart
        rw [behind, again]
      have plain : ¬ (char = ';' ∨ char = ',') := by
        intro mark
        rw [whole, (continuesDeclaration_dark dark rest).mpr mark] at apart
        cases apart
      rw [Reader.Ready.read ready dark plain, Reader.calm_after, Reader.leads_after]

/-- No comment begins in the text. -/
def Uncommented (text : Text) : Prop :=
  text.IsChain fun first second => first = '/' → second ≠ '/' ∧ second ≠ '*'

theorem Uncommented.comment_eq_none {char : Char} {text : Text} (plain : Uncommented (char :: text)) :
    comment (char :: text) = none := by
  refine comment_eq_none_iff.mpr fun slash => ?_
  cases text with
  | nil => exact ⟨nofun, nofun⟩
  | cons second others =>
      obtain ⟨first, star⟩ := (List.isChain_cons_cons.mp plain).1 slash
      exact ⟨fun equal => first (Option.some.inj equal), fun equal => star (Option.some.inj equal)⟩

theorem Uncommented.stripComments_eq_self {text : Text} (plain : Uncommented text) :
    stripComments text = text := by
  have absent : ∀ {mark : Char} (next : Scan), mark = '/' ∨ mark = '*' →
      (Scan.anywhere (Scan.literal ['/', mark] >=> next)).Absent none text := by
    intro mark next known front back split
    unfold Scan.anywhere
    cases found : (Scan.literal ['/', mark] >=> next) back with
    | none => rfl
    | some rest =>
        obtain ⟨between, opened, _rest⟩ := Scan.andThen_eq_some_iff.mp found
        rw [split, Scan.literal_eq_some_iff.mp opened] at plain
        have first := (List.isChain_cons_cons.mp (List.IsChain.right_of_append plain)).1 rfl
        exact absurd known (not_or.mpr first)
  have block : blockComment.remove text = text :=
    Pattern.replace_eq_self_of_absent (absent _ (.inr rfl)) _
  unfold stripComments
  rw [block]
  exact Pattern.replace_eq_self_of_absent (absent _ (.inl rfl)) _

def height (text : Text) : Int := text.foldl (fun depth char => depthAfter char depth) 0

theorem depthAfter_eq (char : Char) (depth : Int) :
    depthAfter char depth = depth + depthAfter char 0 := by
  unfold depthAfter
  split
  · omega
  · split <;> omega

theorem foldl_depthAfter (text : Text) (depth : Int) :
    text.foldl (fun depth char => depthAfter char depth) depth = depth + height text := by
  unfold height
  induction text generalizing depth with
  | nil => exact (Int.add_zero depth).symm
  | cons char text ih =>
      rw [List.foldl_cons, List.foldl_cons, ih, ih (depthAfter char 0), depthAfter_eq char depth]
      omega

theorem height_append (first rest : Text) : height (first ++ rest) = height first + height rest := by
  unfold height
  rw [List.foldl_append, foldl_depthAfter]
  rfl

theorem height_cons (char : Char) (text : Text) :
    height (char :: text) = depthAfter char 0 + height text := height_append [char] text

theorem height_of_blank {blanks : Text} (blank : Blank blanks) : height blanks = 0 := by
  induction blanks with
  | nil => rfl
  | cons char blanks ih =>
      obtain ⟨white, rest⟩ := List.forall_mem_cons.mp blank
      rw [height_cons, depthAfter_of_blank white, ih rest]
      rfl

namespace Reader

theorem Awake.read {reader : Reader} {first rest : Text} (awake : reader.Awake (first ++ rest))
    (plain : Uncommented (first ++ rest)) : (reader.read first).Awake rest := by
  induction first generalizing reader with
  | nil => exact awake
  | cons char first ih => exact ih (awake.calm_step plain.comment_eq_none).2 plain.of_cons

/-- A stretch without comments and without marks that end statements only changes the depth. -/
theorem read_stretch {reader : Reader} {depth : Int} {lead : Text} {done : List Text}
    {stretch rest : Text} (plain : Uncommented (stretch ++ rest))
    (unended : ∀ char ∈ stretch, char ≠ ';' ∧ char ≠ '}') (awake : reader.Awake (stretch ++ rest))
    (same : reader.calm = ⟨.code, depth, .begun lead true, done⟩) :
    (reader.read stretch).calm = ⟨.code, depth + height stretch, .begun lead true, done⟩ := by
  induction stretch generalizing reader depth with
  | nil =>
      have still : depth + height [] = depth := Int.add_zero depth
      exact same.trans (by rw [still])
  | cons char stretch ih =>
      obtain ⟨marks, later⟩ := List.forall_mem_cons.mp unended
      have code : comment (char :: (stretch ++ rest)) = none := plain.comment_eq_none
      obtain ⟨stepped, on⟩ := awake.calm_step code
      have taken : (reader.step char).calm =
          ⟨.code, depthAfter char depth, .begun lead true, done⟩ := by
        rw [stepped, same, take_of_open rfl]
        unfold grow
        simp only [Bool.true_or, if_true]
        rw [if_neg fun both => marks.1 both.2, if_neg fun both => marks.2 both.2]
      rw [read_cons, ih plain.of_cons later on taken, height_cons, depthAfter_eq char depth,
        Int.add_assoc]

end Reader

/-- A text that opens no comment and, inside a statement, does not end it. -/
structure Quiet (text : Text) : Prop where
  plain : Uncommented text
  unended : ∀ char ∈ text, char ≠ ';' ∧ char ≠ '}'

/-- A quiet text that leaves the depth as it was. -/
structure Inner (text : Text) : Prop extends Quiet text where
  level : height text = 0

theorem Quiet.append {first rest : Text} (before : Quiet first) (after : Quiet rest)
    (apart : first.getLast? ≠ some '/' ∨ rest.head? ≠ some '/' ∧ rest.head? ≠ some '*') :
    Quiet (first ++ rest) where
  plain := by
    refine List.isChain_append.mpr ⟨before.plain, after.plain, ?_⟩
    intro last final next begins slash
    rcases apart with other | ⟨line, block⟩
    · exact absurd (slash ▸ final) other
    · exact ⟨fun same => line (same ▸ begins), fun same => block (same ▸ begins)⟩
  unended := List.forall_mem_append.mpr ⟨before.unended, after.unended⟩

theorem Quiet.part {text part : Text} (quiet : Quiet text) (inside : part <:+: text) :
    Quiet part where
  plain := List.IsChain.infix quiet.plain inside
  unended := fun char member => quiet.unended char (inside.subset member)

theorem height_trim (text : Text) : height text.trim = height text := by
  obtain ⟨before, after, left, right, same⟩ := Text.exists_trim text
  have level := congrArg height same
  rw [height_append, height_append, height_of_blank left, height_of_blank right] at level
  omega

theorem Inner.trim {text : Text} (inner : Inner text) : Inner text.trim := by
  obtain ⟨before, after, _left, _right, same⟩ := Text.exists_trim text
  exact ⟨inner.part ⟨before, after, same.symm⟩, (height_trim text).trans inner.level⟩

/-- Between two statements a return with an inner text is one more statement. -/
theorem Reader.read_return {reader : Reader} {done : List Text} (ready : reader.Ready done)
    {value : Text} (inner : Inner value) :
    reader.read ("return " ++ value ++ ";") = ⟨.code, 0, .none, done ++ ["return".toList]⟩ := by
  have opening : start.read "return " = ⟨.code, 0, .begun "return" true, []⟩ := by
    decide +kernel
  have chained : Uncommented (value ++ [';']) := by
    refine List.isChain_append.mpr ⟨inner.plain, .singleton _, ?_⟩
    intro last _member next same _slash
    cases same
    exact ⟨by decide, by decide⟩
  let opened : Reader := ⟨.code, 0, .begun "return" true, []⟩
  have clear : opened.Awake (value ++ [';']) := awake_of_code rfl _
  have calm := read_stretch chained inner.unended clear rfl
  have awake := clear.read chained
  have plain : comment [';'] = none := rfl
  obtain ⟨stepped, _later⟩ := awake.calm_step plain
  have code := awake.mode_step plain (by decide)
  rw [calm_of_code code, calm, inner.level] at stepped
  have text : ("return " ++ value ++ ";" : Text) = 'r' :: ("eturn " ++ (value ++ [';'])) := by
    rw [List.append_assoc]
    rfl
  have whole : start.read ('r' :: ("eturn " ++ (value ++ [';']))) =
      (opened.read value).step ';' := by
    calc
      _ = (start.read "return ").read (value ++ [';']) := read_append start "return " _
      _ = opened.read (value ++ [';']) := by rw [opening]
      _ = _ := read_append opened value [';']
  rw [text, ready.read (by decide) (by decide), whole, stepped]
  rfl

end Code
end ShaderBridge
