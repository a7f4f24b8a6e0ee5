import ShaderBridge.Proofs.Code.Division
import ShaderBridge.Proofs.Text.Character
set_option autoImplicit false

/-! The statements of a text, read one character at a time. The statements of a text are found by
looking ahead: to the end of a comment, and past a closing brace. A reader makes the same cuts
without looking ahead, and keeps of each statement its leading word (`leads_eq`). Where a statement
starts the reader stands between two statements (`ready_at`), and behind the last one it meets no
other (`leads_read_behind`). -/

namespace ShaderBridge
namespace Code

inductive Mode where
  | code
  /-- Behind a slash, which may open a comment. -/
  | slash
  | line
  | block
  /-- In a block comment, behind a star, which may close it. -/
  | star
  deriving DecidableEq

inductive Clause where
  | none
  /-- A statement begun, and whether its leading word is over. -/
  | begun (lead : Text) (ended : Bool)
  /-- A statement that a brace ended, unless a semicolon or a comma comes next. -/
  | closed (lead : Text)
  deriving DecidableEq

structure Reader where
  mode : Mode
  depth : Int
  clause : Clause
  /-- The leading words of the statements that have ended. -/
  done : List Text
  deriving DecidableEq

namespace Reader

def start : Reader := ⟨.code, 0, .none, []⟩

def settle (char : Char) (reader : Reader) : Reader :=
  match reader.clause with
  | .closed lead =>
    if isBlank char then reader
    else if char = ';' ∨ char = ',' then { reader with clause := .begun lead true }
    else { reader with clause := .none, done := reader.done ++ [lead] }
  | _ => reader

def grow (char : Char) (lead : Text) (ended : Bool) (reader : Reader) : Reader :=
  let ends := ended || !isWord char
  let word := if ends then lead else lead ++ [char]
  let deep := depthAfter char reader.depth
  if deep = 0 ∧ char = ';' then ⟨reader.mode, deep, .none, reader.done ++ [word]⟩
  else
    ⟨reader.mode, deep, if deep = 0 ∧ char = '}' then .closed word else .begun word ends,
      reader.done⟩

/-- A character of code. -/
def take (char : Char) (reader : Reader) : Reader :=
  match (reader.settle char).clause with
  | .none => if isBlank char then reader.settle char else (reader.settle char).grow char [] false
  | .begun lead ended => (reader.settle char).grow char lead ended
  | .closed _ => reader.settle char

def interrupt (reader : Reader) : Reader :=
  match reader.clause with
  | .begun lead _ => { reader with clause := .begun lead true }
  | _ => reader

def step (reader : Reader) (char : Char) : Reader :=
  match reader.mode with
  | .code => if char = '/' then { reader.settle '/' with mode := .slash } else reader.take char
  | .slash =>
    if char = '/' then { reader.interrupt with mode := .line }
    else if char = '*' then { reader.interrupt with mode := .block }
    else ({ reader with mode := .code }.take '/').take char
  | .line => if char = '\n' then { reader with mode := .code }.take char else reader
  | .block => if char = '*' then { reader with mode := .star } else reader
  | .star =>
    if char = '/' then { reader with mode := .code }
    else if char = '*' then reader else { reader with mode := .block }

def read (text : Text) (reader : Reader) : Reader := text.foldl step reader

/-- The reader where no comment goes on or opens; a slash that it held back is taken. -/
def calm (reader : Reader) : Reader :=
  match reader.mode with
  | .slash => { reader with mode := .code }.take '/'
  | _ => { reader with mode := .code }

def leads (reader : Reader) : List Text :=
  match reader.clause with
  | .none => reader.done
  | .begun lead _ => reader.done ++ [lead]
  | .closed lead => reader.done ++ [lead]

end Reader

/-- The leading words of the statements of a text. -/
def leads (text : Text) : List Text := (Reader.start.read text).calm.leads

namespace Reader

theorem read_nil (reader : Reader) : reader.read [] = reader := rfl

theorem read_cons (reader : Reader) (char : Char) (text : Text) :
    reader.read (char :: text) = (reader.step char).read text := rfl

theorem read_append (reader : Reader) (first rest : Text) :
    reader.read (first ++ rest) = (reader.read first).read rest := List.foldl_append

theorem mode_settle (reader : Reader) (char : Char) : (reader.settle char).mode = reader.mode := by
  unfold settle
  split
  · split
    · rfl
    · split <;> rfl
  · rfl

theorem depth_settle (reader : Reader) (char : Char) :
    (reader.settle char).depth = reader.depth := by
  unfold settle
  split
  · split
    · rfl
    · split <;> rfl
  · rfl

theorem mode_grow (reader : Reader) (char : Char) (lead : Text) (ended : Bool) :
    (reader.grow char lead ended).mode = reader.mode := by
  unfold grow
  simp only
  split <;> rfl

theorem mode_take (reader : Reader) (char : Char) : (reader.take char).mode = reader.mode := by
  unfold take
  split
  · split
    · exact mode_settle reader char
    · rw [mode_grow, mode_settle]
  · rw [mode_grow, mode_settle]
  · exact mode_settle reader char

theorem calm_of_code {reader : Reader} (code : reader.mode = .code) : reader.calm = reader := by
  obtain ⟨mode, depth, clause, done⟩ := reader
  obtain rfl : mode = .code := code
  rfl

/-- A dark character leaves no statement closed. -/
theorem settle_of_dark {char : Char} (dark : isBlank char = false) (reader : Reader) :
    (reader.settle char).clause = .none ∨ ∃ lead ended, (reader.settle char).clause = .begun lead ended := by
  unfold settle
  split
  · next lead closed =>
      rw [if_neg (Bool.eq_false_iff.mp dark)]
      split
      · exact .inr ⟨lead, true, rfl⟩
      · exact .inl rfl
  · next other =>
      cases held : reader.clause with
      | none => exact .inl rfl
      | begun lead ended => exact .inr ⟨lead, ended, rfl⟩
      | closed lead => exact absurd held (other lead)

theorem settle_of_open {reader : Reader} (char : Char)
    (open_ : reader.clause = .none ∨ ∃ lead ended, reader.clause = .begun lead ended) :
    reader.settle char = reader := by
  unfold settle
  rcases open_ with none | ⟨lead, ended, begun⟩
  · rw [none]
  · rw [begun]

theorem take_of_open {reader : Reader} {lead : Text} {ended : Bool}
    (open_ : reader.clause = .begun lead ended) (char : Char) :
    reader.take char = reader.grow char lead ended := by
  unfold take
  rw [settle_of_open char (.inr ⟨lead, ended, open_⟩), open_]

/-- White space says nothing between two statements. -/
theorem take_blank {reader : Reader} {char : Char} (white : isBlank char = true)
    (between : reader.clause = .none ∨ ∃ lead, reader.clause = .closed lead) :
    reader.take char = reader := by
  have still : reader.settle char = reader := by
    rcases between with none | ⟨lead, closed⟩
    · exact settle_of_open char (.inl none)
    · unfold settle
      rw [closed]
      exact if_pos white
  unfold take
  rw [still]
  rcases between with none | ⟨lead, closed⟩
  · rw [none]
    exact if_pos white
  · rw [closed]

theorem take_settle {char : Char} (dark : isBlank char = false) (reader : Reader) :
    (reader.settle char).take char = reader.take char := by
  unfold take
  rw [settle_of_open char (settle_of_dark dark reader)]

/-- No comment goes on into the text, but for what its end leaves to be read. -/
def Awake (reader : Reader) (text : Text) : Prop :=
  match reader.mode with
  | .code => True
  | .slash => text.head? ≠ some '/' ∧ text.head? ≠ some '*'
  | .line => ∀ char ∈ text.head?, char = '\n'
  | .block => text = []
  | .star => text = []

theorem awake_of_code {reader : Reader} (code : reader.mode = .code) (text : Text) :
    reader.Awake text := by
  unfold Awake
  rw [code]
  trivial

/-- A character outside comments is taken, at once or when the next one is read. -/
theorem Awake.calm_step {reader : Reader} {char : Char} {text : Text} (awake : reader.Awake (char :: text))
    (none : comment (char :: text) = none) :
    (reader.step char).calm = reader.calm.take char ∧ (reader.step char).Awake text := by
  obtain ⟨mode, depth, clause, done⟩ := reader
  cases mode with
  | code =>
      by_cases opens : char = '/'
      · subst opens
        have dark : isBlank '/' = false := by decide
        refine ⟨?_, ?_⟩
        · have same := mode_settle ⟨.code, depth, clause, done⟩ '/'
          have idle : calm ⟨.code, depth, clause, done⟩ = ⟨.code, depth, clause, done⟩ := rfl
          rw [idle, ← take_settle dark]
          change Reader.take '/' { settle '/' ⟨.code, depth, clause, done⟩ with mode := .code } = _
          generalize settle '/' ⟨.code, depth, clause, done⟩ = settled at same
          obtain ⟨mode, depth, clause, done⟩ := settled
          obtain rfl : mode = .code := same
          rfl
        · exact comment_eq_none_iff.mp none rfl
      · have taken : step ⟨.code, depth, clause, done⟩ char = take char ⟨.code, depth, clause, done⟩ :=
          if_neg opens
        have code := mode_take ⟨.code, depth, clause, done⟩ char
        rw [taken]
        exact ⟨by rw [calm_of_code code]; rfl, awake_of_code code text⟩
  | slash =>
      obtain ⟨plain, other⟩ := awake
      have first : char ≠ '/' := fun same => plain (congrArg some same)
      have second : char ≠ '*' := fun same => other (congrArg some same)
      have taken : step ⟨.slash, depth, clause, done⟩ char =
          (take '/' ⟨.code, depth, clause, done⟩).take char :=
        (if_neg first).trans (if_neg second)
      have code : ((take '/' ⟨.code, depth, clause, done⟩).take char).mode = .code := by
        rw [mode_take, mode_take]
      rw [taken]
      exact ⟨by rw [calm_of_code code]; rfl, awake_of_code code text⟩
  | line =>
      obtain rfl : char = '\n' := awake char rfl
      have code := mode_take ⟨.code, depth, clause, done⟩ '\n'
      change (take '\n' ⟨.code, depth, clause, done⟩).calm = _ ∧ Awake (take '\n' _) _
      exact ⟨by rw [calm_of_code code]; rfl, awake_of_code code text⟩
  | block => cases awake
  | star => cases awake

/-- Behind a character of code that opens no comment the reader is in code. -/
theorem Awake.mode_step {reader : Reader} {char : Char} {text : Text}
    (awake : reader.Awake (char :: text)) (none : comment (char :: text) = none)
    (plain : char ≠ '/') : (reader.step char).mode = .code := by
  obtain ⟨mode, depth, clause, done⟩ := reader
  cases mode with
  | code => exact (congrArg Reader.mode (if_neg plain)).trans (mode_take _ _)
  | slash =>
      have second : char ≠ '*' := fun same => awake.2 (congrArg some same)
      have taken : step ⟨.slash, depth, clause, done⟩ char =
          (take '/' ⟨.code, depth, clause, done⟩).take char :=
        (if_neg plain).trans (if_neg second)
      rw [taken, mode_take, mode_take]
  | line =>
      obtain rfl : char = '\n' := awake char rfl
      exact mode_take _ _
  | block => cases awake
  | star => cases awake

private theorem read_line {reader : Reader} (line : reader.mode = .line) {stretch : Text}
    (flat : '\n' ∉ stretch) : reader.read stretch = reader := by
  induction stretch with
  | nil => rfl
  | cons char stretch ih =>
      obtain ⟨other, rest⟩ := not_or.mp (mt List.mem_cons.mpr flat)
      have same : reader.step char = reader := by
        unfold step
        rw [line]
        exact if_neg fun feed => other feed.symm
      rw [read_cons, same, ih rest]

/-- A block comment is read up to its end, or to the end of the text. -/
private theorem read_block (depth : Int) (clause : Clause) (done : List Text) {text rest : Text}
    (found : closeBlock text = some rest) :
    ∃ stretch mode, text = stretch ++ rest ∧
      read stretch ⟨.block, depth, clause, done⟩ = ⟨mode, depth, clause, done⟩ ∧
        (mode = .code ∨ (mode = .block ∨ mode = .star) ∧ rest = []) := by
  -- behind a star as well as behind any other character of the comment
  have either : ∀ text rest : Text, closeBlock text = some rest →
      (∃ stretch mode, text = stretch ++ rest ∧
        read stretch ⟨.block, depth, clause, done⟩ = ⟨mode, depth, clause, done⟩ ∧
          (mode = .code ∨ (mode = .block ∨ mode = .star) ∧ rest = [])) ∧
      (text.head? ≠ some '/' → ∃ stretch mode, text = stretch ++ rest ∧
        read stretch ⟨.star, depth, clause, done⟩ = ⟨mode, depth, clause, done⟩ ∧
          (mode = .code ∨ (mode = .block ∨ mode = .star) ∧ rest = [])) := by
    intro text rest found
    induction text using closeBlock.induct with
    | case1 =>
        cases found
        exact ⟨⟨[], .block, rfl, rfl, .inr ⟨.inl rfl, rfl⟩⟩,
          fun _open => ⟨[], .star, rfl, rfl, .inr ⟨.inr rfl, rfl⟩⟩⟩
    | case2 text =>
        cases found
        exact ⟨⟨['*', '/'], .code, rfl, rfl, .inl rfl⟩,
          fun _open => ⟨['*', '/'], .code, rfl, rfl, .inl rfl⟩⟩
    | case3 char text other ih =>
        rw [closeBlock] at found
        · obtain ⟨inside, behind⟩ := ih found
          by_cases star : char = '*'
          · subst star
            have open_ : text.head? ≠ some '/' := by
              intro closes
              obtain ⟨more, rfl⟩ := List.head?_eq_some_iff.mp closes
              exact other more rfl rfl
            obtain ⟨stretch, mode, rfl, same, ends⟩ := behind open_
            exact ⟨⟨'*' :: stretch, mode, rfl, same, ends⟩,
              fun _open => ⟨'*' :: stretch, mode, rfl, same, ends⟩⟩
          · obtain ⟨stretch, mode, rfl, same, ends⟩ := inside
            have block : step ⟨.block, depth, clause, done⟩ char = ⟨.block, depth, clause, done⟩ :=
              if_neg star
            refine ⟨⟨char :: stretch, mode, rfl, by rw [read_cons, block, same], ends⟩, ?_⟩
            intro open_
            have slash : char ≠ '/' := fun equal => open_ (congrArg some equal)
            have back : step ⟨.star, depth, clause, done⟩ char = ⟨.block, depth, clause, done⟩ :=
              (if_neg slash).trans (if_neg star)
            exact ⟨char :: stretch, mode, rfl, by rw [read_cons, back, same], ends⟩
        · exact other
  exact (either text rest found).1

end Reader

/-! ### The reader follows the statements -/

/-- The clause of a statement begun, none between two statements. -/
def Clause.of : Option OpenStatement → Clause
  | .none => .none
  | some opened => .begun opened.lead opened.ended

/-- A reader outside comments stands where the statements do. A closing brace that the statements
have looked past may still be open for the reader. -/
structure Reader.Follows (reader : Reader) (depth : Int) (current : Option OpenStatement)
    (done : List Text) (text : Text) : Prop where
  mode : reader.mode = .code
  level : reader.depth = depth
  between : current = none → depth = 0
  clause : (reader.clause = .of current ∧ reader.done = done) ∨ ∃ lead, reader.clause = .closed lead ∧
    match current with
    | none => reader.done ++ [lead] = done ∧ continuesDeclaration text = false
    | some begun => reader.done = done ∧ lead = begun.lead ∧ begun.ended = true ∧
        continuesDeclaration text = true

namespace Reader

section
variable {reader : Reader} {depth : Int} {current : Option OpenStatement} {done : List Text}
  {char : Char} {text : Text}

/-- A dark character shows whether a closing brace has ended a statement. -/
theorem Follows.settle (follows : reader.Follows depth current done (char :: text))
    (dark : isBlank char = false) : reader.settle char = ⟨.code, depth, .of current, done⟩ := by
  obtain ⟨mode, rfl, _between, clause⟩ := follows
  obtain ⟨way, depth, held, past⟩ := reader
  obtain rfl : way = .code := mode
  rcases clause with ⟨rfl, rfl⟩ | ⟨lead, rfl, place⟩
  · refine settle_of_open char ?_
    cases current with
    | none => exact .inl rfl
    | some begun => exact .inr ⟨_, _, rfl⟩
  · have step : Reader.settle char ⟨.code, depth, .closed lead, past⟩ =
        if char = ';' ∨ char = ',' then ⟨.code, depth, .begun lead true, past⟩
        else ⟨.code, depth, .none, past ++ [lead]⟩ := if_neg (Bool.eq_false_iff.mp dark)
    rw [step]
    cases current with
    | none =>
        obtain ⟨rfl, ends⟩ := place
        exact if_neg (mt (continuesDeclaration_dark dark text).mpr (Bool.eq_false_iff.mp ends))
    | some begun =>
        obtain ⟨rfl, rfl, ended, continues⟩ := place
        rw [if_pos ((continuesDeclaration_dark dark text).mp continues), Clause.of, ended]

theorem Follows.take_dark (follows : reader.Follows depth current done (char :: text))
    (dark : isBlank char = false) (offset : Nat) :
    let begun := current.getD ⟨offset, []⟩
    reader.take char = Reader.grow char begun.lead begun.ended ⟨.code, depth, .of current, done⟩ := by
  intro begun
  unfold take
  rw [follows.settle dark]
  cases current with
  | none => exact if_neg (Bool.eq_false_iff.mp dark)
  | some begun => rfl

theorem Follows.blank (follows : reader.Follows depth none done (char :: text))
    (white : isBlank char = true) : (reader.take char).Follows depth none done text := by
  obtain ⟨mode, rfl, between, clause⟩ := follows
  rcases clause with ⟨held, rfl⟩ | ⟨lead, held, same, ends⟩
  · rw [take_blank white (.inl held)]
    exact ⟨mode, rfl, between, .inl ⟨held, rfl⟩⟩
  · rw [take_blank white (.inr ⟨lead, held⟩)]
    rw [continuesDeclaration_blank white] at ends
    exact ⟨mode, rfl, between, .inr ⟨lead, held, same, ends⟩⟩

theorem grow_push (begun : OpenStatement) (char : Char) (depth : Int) (clause : Clause)
    (done : List Text) :
    Reader.grow char begun.lead begun.ended ⟨.code, depth, clause, done⟩ =
      if depthAfter char depth = 0 ∧ char = ';' then
        ⟨.code, depthAfter char depth, .none, done ++ [(begun.push char).lead]⟩
      else
        ⟨.code, depthAfter char depth,
          if depthAfter char depth = 0 ∧ char = '}' then .closed (begun.push char).lead
          else .begun (begun.push char).lead (begun.push char).ended, done⟩ := by
  rw [OpenStatement.lead_push, OpenStatement.ended_push]
  rfl

theorem Follows.ended (follows : reader.Follows depth current done (char :: text))
    (ends : endsStatement char (depthAfter char depth) text = true) (offset : Nat) :
    (reader.take char).Follows (depthAfter char depth) none
      (done ++ [((current.getD ⟨offset, []⟩).push char).lead]) text := by
  obtain ⟨level, mark⟩ := Bool.and_eq_true_iff.mp ends
  have zero : depthAfter char depth = 0 := eq_of_beq level
  rcases Bool.or_eq_true_iff.mp mark with semicolon | brace
  · obtain rfl := eq_of_beq semicolon
    rw [follows.take_dark (by decide) offset, grow_push, if_pos ⟨zero, rfl⟩]
    exact ⟨rfl, rfl, fun _none => zero, .inl ⟨rfl, rfl⟩⟩
  · obtain ⟨closes, continues⟩ := Bool.and_eq_true_iff.mp brace
    obtain rfl := eq_of_beq closes
    have other : ¬ (depthAfter '}' depth = 0 ∧ '}' = ';') := fun both => absurd both.2 (by decide)
    rw [follows.take_dark (by decide) offset, grow_push, if_neg other, if_pos ⟨zero, rfl⟩]
    refine ⟨rfl, rfl, fun _none => zero, .inr ⟨_, rfl, rfl, ?_⟩⟩
    simpa using continues

theorem Follows.grown (follows : reader.Follows depth current done (char :: text))
    (dark : current = none → isBlank char = false)
    (goesOn : endsStatement char (depthAfter char depth) text = false) (offset : Nat) :
    (reader.take char).Follows (depthAfter char depth)
      (some ((current.getD ⟨offset, []⟩).push char)) done text := by
  have ends : ∀ {first second : Prop}, (first → second → endsStatement char (depthAfter char depth)
      text = true) → ¬ (first ∧ second) :=
    fun closes both => absurd (goesOn.symm.trans (closes both.1 both.2)) nofun
  by_cases white : isBlank char = true
  · have level := depthAfter_of_blank white depth
    obtain ⟨begun, rfl⟩ : ∃ begun, current = some begun := by
      cases current with
      | none => exact absurd white (Bool.eq_false_iff.mp (dark rfl))
      | some begun => exact ⟨begun, rfl⟩
    have outside : (!isWord char) = true := by
      rw [isWord_of_isBlank white]
      rfl
    obtain ⟨mode, rfl, _between, clause⟩ := follows
    rw [level]
    rcases clause with ⟨held, rfl⟩ | ⟨lead, held, same, equal, ended, continues⟩
    · have taken := take_of_open held char
      obtain ⟨way, depth, _clause, past⟩ := reader
      obtain rfl : way = .code := mode
      have marks : char ≠ ';' ∧ char ≠ '}' := by
        refine ⟨?_, ?_⟩ <;> rintro rfl <;> exact absurd white (by decide)
      rw [taken, grow_push, if_neg fun both => marks.1 both.2, if_neg fun both => marks.2 both.2,
        level]
      exact ⟨rfl, rfl, nofun, .inl ⟨rfl, rfl⟩⟩
    · rw [take_blank white (.inr ⟨lead, held⟩)]
      rw [continuesDeclaration_blank white] at continues
      refine ⟨mode, rfl, nofun, .inr ⟨lead, held, same, ?_, ?_, continues⟩⟩
      · rw [equal, Option.getD_some, OpenStatement.lead_push, OpenStatement.ended_push, ended]
        rfl
      · rw [Option.getD_some, OpenStatement.ended_push, ended]
        rfl
  · rw [follows.take_dark (Bool.eq_false_iff.mpr white) offset, grow_push, if_neg (ends ?_)]
    · by_cases closes : depthAfter char depth = 0 ∧ char = '}'
      · rw [if_pos closes]
        obtain ⟨level, rfl⟩ := closes
        refine ⟨rfl, rfl, nofun, .inr ⟨_, rfl, rfl, rfl, ?_, ?_⟩⟩
        · rw [OpenStatement.ended_push]
          exact Bool.or_eq_true_iff.mpr (.inr (by decide))
        · unfold endsStatement at goesOn
          rw [level] at goesOn
          simpa using goesOn
      · rw [if_neg closes]
        exact ⟨rfl, rfl, nofun, .inl ⟨rfl, rfl⟩⟩
    · rintro level rfl
      unfold endsStatement
      rw [level]
      rfl

end

section
variable {reader : Reader} {depth : Int} {current : Option OpenStatement} {done : List Text}

/-- A comment is no part of a leading word and otherwise changes nothing. -/
theorem Follows.comment {stretch rest : Text}
    (follows : reader.calm.Follows depth current done (stretch ++ rest))
    (awake : reader.Awake (stretch ++ rest))
    (found : Code.comment (stretch ++ rest) = some rest) :
    (reader.read stretch).Awake rest ∧
      (reader.read stretch).calm.Follows depth (current.map (·.pushAll stretch)) done rest := by
  have slash : isWord '/' = false := by decide
  have opens : ∃ more, stretch = '/' :: more := by
    rcases comment_cases found with ⟨line, rfl, _flat, _ends⟩ | ⟨inner, rfl, _closed⟩
    · exact ⟨_, rfl⟩
    · exact ⟨_, rfl⟩
  obtain ⟨more, rfl⟩ := opens
  have code : reader.mode = .code := by
    unfold Awake at awake
    split at awake
    · next code => exact code
    · exact absurd rfl awake.1
    · exact absurd (awake '/' rfl) (by decide)
    · cases awake
    · cases awake
  rw [calm_of_code code] at follows
  have first : reader.step '/' = ⟨.slash, depth, .of current, done⟩ := by
    have settled := follows.settle (by decide : isBlank '/' = false)
    unfold step
    rw [code]
    change { reader.settle '/' with mode := .slash } = _
    rw [settled]
  have interrupted : ∀ mode, { interrupt ⟨.slash, depth, .of current, done⟩ with mode := mode } =
      (⟨mode, depth, .of (current.map (·.pushAll ('/' :: more))), done⟩ : Reader) := by
    intro mode
    cases current with
    | none => rfl
    | some begun =>
        obtain ⟨lead, ended⟩ := begun.pushAll_mark slash more
        change _ = (⟨mode, depth, .begun (begun.pushAll _).lead (begun.pushAll _).ended, done⟩ : Reader)
        rw [lead, ended]
        rfl
  have between : current.map (·.pushAll ('/' :: more)) = none → depth = 0 :=
    fun none => follows.between (Option.map_eq_none_iff.mp none)
  rw [read_cons, first]
  rcases comment_cases found with ⟨line, same, flat, ends⟩ | ⟨inner, same, closed⟩
  · obtain rfl := (List.cons.inj same).2
    have second : step ⟨.slash, depth, .of current, done⟩ '/' = _ := interrupted .line
    rw [read_cons, second, read_line rfl flat]
    exact ⟨ends, rfl, rfl, between, .inl ⟨rfl, rfl⟩⟩
  · obtain rfl := (List.cons.inj same).2
    have second : step ⟨.slash, depth, .of current, done⟩ '*' = _ := interrupted .block
    rw [read_cons, second]
    obtain ⟨stretch, mode, whole, reads, ends⟩ := read_block depth
      (.of (current.map (·.pushAll ('/' :: '*' :: inner)))) done closed
    obtain rfl := List.append_cancel_right whole
    rw [reads]
    rcases ends with rfl | ⟨rfl | rfl, rfl⟩
    · exact ⟨trivial, rfl, rfl, between, .inl ⟨rfl, rfl⟩⟩
    · exact ⟨rfl, rfl, rfl, between, .inl ⟨rfl, rfl⟩⟩
    · exact ⟨rfl, rfl, rfl, between, .inl ⟨rfl, rfl⟩⟩

end

end Reader

/-- The reader keeps the leading words of the statements. -/
theorem leads_read {depth : Int} {current : Option OpenStatement} {offset : Nat} {text : Text}
    {statements : List Statement} (divided : Divided depth current offset text statements)
    {reader : Reader} {done : List Text} (awake : reader.Awake text)
    (follows : reader.calm.Follows depth current done text) (front : Text)
    (long : front.length = offset) (begun : ∀ open_ ∈ current, open_.Begun front) :
    (reader.read text).calm.leads = done ++ statements.map (leadIn (front ++ text)) := by
  induction divided generalizing reader done front with
  | done =>
      obtain ⟨_mode, _level, _between, ⟨held, same⟩ | ⟨lead, held, same, _ends⟩⟩ := follows
      · unfold Reader.leads
        rw [Reader.read_nil, held, same]
        exact (List.append_nil done).symm
      · unfold Reader.leads
        rw [Reader.read_nil, held]
        exact same.trans (List.append_nil done).symm
  | @last _depth current offset =>
      obtain ⟨before, whole, start⟩ := begun current rfl
      have lead : leadIn (front ++ []) (current.close offset) = current.lead := by
        change ((front ++ []).drop current.start).takeWhile isWord = _
        rw [List.append_nil, whole, start, List.drop_left]
        rfl
      obtain ⟨_mode, _level, _between, ⟨held, same⟩ | ⟨lead, held, same, _ended, _word, ends⟩⟩ := follows
      · rw [List.map_singleton, lead]
        unfold Reader.leads
        rw [Reader.read_nil, held, ← same]
        rfl
      · cases ends
  | @comment depth current offset stretch rest statements found _filled _divided ih =>
      obtain ⟨later, on⟩ := follows.comment awake found
      have further : (front ++ stretch).length = offset + stretch.length := by
        rw [List.length_append, long]
      rw [Reader.read_append, ih later on (front ++ stretch) further (begun_pushAll begun stretch),
        List.append_assoc]
  | @blank depth offset char text statements white _divided ih =>
      obtain ⟨same, later⟩ := awake.calm_step (comment_of_blank white text)
      have on := follows.blank white
      rw [← same] at on
      have further : (front ++ [char]).length = offset + 1 := by rw [List.length_append, long]; rfl
      rw [Reader.read_cons, ih later on (front ++ [char]) further nofun, List.append_assoc]
      rfl
  | @ended depth current offset char text statements plain dark ends _divided ih =>
      obtain ⟨same, later⟩ := awake.calm_step plain
      have on := follows.ended ends offset
      rw [← same] at on
      have further : (front ++ [char]).length = offset + 1 := by rw [List.length_append, long]; rfl
      have grown := OpenStatement.begun_grown long begun char
      have lead := grown.leadIn_close (mark_of_endsStatement ends) (offset + 1) text
      rw [Reader.read_cons, ih later on (front ++ [char]) further nofun, List.append_assoc, List.append_assoc,
        List.map_cons]
      rw [List.append_assoc] at lead
      exact congrArg (fun first => done ++ (first :: _)) lead.symm
  | @grown depth current offset char text statements plain dark goesOn _divided ih =>
      obtain ⟨same, later⟩ := awake.calm_step plain
      have on := follows.grown dark goesOn offset
      rw [← same] at on
      have further : (front ++ [char]).length = offset + 1 := by rw [List.length_append, long]; rfl
      have grown := OpenStatement.begun_grown long begun char
      rw [Reader.read_cons, ih later on (front ++ [char]) further
        fun open_ member => Option.some.inj member ▸ grown, List.append_assoc]
      rfl

theorem follows_start (text : Text) : Reader.start.calm.Follows 0 none [] text :=
  ⟨rfl, rfl, fun _none => rfl, .inl ⟨rfl, rfl⟩⟩

theorem awake_start (text : Text) : Reader.start.Awake text := Reader.awake_of_code rfl text

/-- The leading words of the statements of a text are read off it one character at a time. -/
theorem leads_eq (text : Text) : leads text = (statements text).map (leadIn text) :=
  leads_read (divided_statements text) (awake_start text) (follows_start text) [] rfl nofun

structure Reader.Ready (reader : Reader) (done : List Text) : Prop where
  mode : reader.mode = .code
  level : reader.depth = 0
  clause : (reader.clause = .none ∧ reader.done = done) ∨
    ∃ lead, reader.clause = .closed lead ∧ reader.done ++ [lead] = done

/-- A dark character joins the statement begun, or begins one, and ends it only at depth zero. -/
theorem Reader.take_dark {char : Char} (dark : isBlank char = false) (reader : Reader) :
    ∃ lead ended, (reader.take char).depth = depthAfter char reader.depth ∧
      (reader.take char).clause =
        if depthAfter char reader.depth = 0 ∧ char = ';' then .none
        else if depthAfter char reader.depth = 0 ∧ char = '}' then .closed lead
        else .begun lead ended := by
  have grows : ∀ (lead : Text) (ended : Bool),
      ∃ word ends, ((reader.settle char).grow char lead ended).depth = depthAfter char reader.depth ∧
        ((reader.settle char).grow char lead ended).clause =
          if depthAfter char reader.depth = 0 ∧ char = ';' then .none
          else if depthAfter char reader.depth = 0 ∧ char = '}' then .closed word
          else .begun word ends := by
    intro lead ended
    refine ⟨if ended || !isWord char then lead else lead ++ [char], ended || !isWord char, ?_⟩
    unfold Reader.grow
    simp only
    rw [Reader.depth_settle]
    split <;> exact ⟨rfl, rfl⟩
  unfold Reader.take
  rcases reader.settle_of_dark dark with none | ⟨lead, ended, begun⟩
  · rw [none]
    simp only [dark, Bool.false_eq_true, if_false]
    exact grows _ _
  · rw [begun]
    exact grows _ _

/-- In front of a character of code that no statement has taken up, the reader is ready. -/
theorem Reader.Follows.ready {reader : Reader} {depth : Int} {done : List Text} {char : Char}
    {text : Text} (follows : reader.calm.Follows depth none done (char :: text))
    (awake : reader.Awake (char :: text)) (dark : isBlank char = false) : reader.Ready done := by
  obtain ⟨_mode, level, between, clause⟩ := follows
  obtain ⟨way, deep, held, past⟩ := reader
  cases way with
  | code =>
      refine ⟨rfl, level.trans (between rfl), ?_⟩
      rcases clause with none | ⟨lead, closed, same, _ends⟩
      · exact .inl none
      · exact .inr ⟨lead, closed, same⟩
  | slash =>
      have dark : isBlank '/' = false := by decide
      obtain ⟨lead, ended, _deep, begun⟩ := Reader.take_dark dark ⟨.code, deep, held, past⟩
      rw [if_neg fun both => absurd both.2 (by decide), if_neg fun both => absurd both.2 (by decide)]
        at begun
      rcases clause with ⟨none, _same⟩ | ⟨_lead, closed, _same, _ends⟩
      · exact absurd (begun.symm.trans none) nofun
      · exact absurd (begun.symm.trans closed) nofun
  | line =>
      obtain rfl : char = '\n' := awake char rfl
      exact absurd dark (by decide)
  | block => cases awake
  | star => cases awake

/-- Where a statement starts the reader stands between two statements, behind those before it. -/
theorem Divided.ready {depth : Int} {current : Option OpenStatement} {offset : Nat} {text : Text}
    {statements : List Statement} (divided : Divided depth current offset text statements)
    {reader : Reader} {done : List Text} (awake : reader.Awake text)
    (follows : reader.calm.Follows depth current done text) {front : Text}
    (long : front.length = offset) (begun : ∀ open_ ∈ current, open_.Begun front)
    {before after : List Statement} {statement : Statement}
    (split : statements = before ++ statement :: after) (behind : current = none ∨ before ≠ []) :
    ∃ passed rest, text = passed ++ rest ∧ statement.start = offset + passed.length ∧
      (reader.read passed).Ready (done ++ before.map (leadIn (front ++ text))) := by
  have here : ∀ {reader : Reader} {done : List Text} {whole : Text},
      reader.Ready done → (reader.read []).Ready (done ++ [].map (leadIn whole)) := by
    intro reader done whole ready
    rwa [List.map_nil, List.append_nil]
  -- The reader has read `front`. A step of the division is one of the reader, which so stays with it.
  induction divided generalizing reader done front before with
  | done => exact absurd split.symm (List.append_ne_nil_of_right_ne_nil before (List.cons_ne_nil _ _))
  | last =>
      cases before with
      | nil => exact absurd behind (by simp)
      | cons first before =>
          exact absurd (List.cons.inj split).2.symm
            (List.append_ne_nil_of_right_ne_nil before (List.cons_ne_nil _ _))
  | @comment depth current offset stretch rest statements found _filled _divided ih =>
      obtain ⟨later, on⟩ := follows.comment awake found
      obtain ⟨passed, rest, rfl, start, ready⟩ := ih later on
        (by rw [List.length_append, long] : (front ++ stretch).length = _)
        (begun_pushAll begun stretch) split (behind.imp_left fun none => by rw [none]; rfl)
      refine ⟨stretch ++ passed, rest, (List.append_assoc _ _ _).symm, ?_, ?_⟩
      · rw [start, List.length_append, Nat.add_assoc]
      · rw [List.append_assoc] at ready
        rwa [Reader.read_append]
  | @blank depth offset char text statements white _divided ih =>
      obtain ⟨same, later⟩ := awake.calm_step (comment_of_blank white text)
      have on := follows.blank white
      rw [← same] at on
      have further : (front ++ [char]).length = offset + 1 := by rw [List.length_append, long]; rfl
      obtain ⟨passed, rest, rfl, start, ready⟩ := ih later on further nofun split (.inl rfl)
      refine ⟨char :: passed, rest, rfl, ?_, ?_⟩
      · rw [start, List.length_cons]
        omega
      · rw [List.append_assoc] at ready
        exact ready
  | @ended depth current offset char text statements plain dark ends _divided ih =>
      cases before with
      | nil =>
          have none := behind.resolve_right (not_not_intro rfl)
          obtain ⟨rfl, rfl⟩ := List.cons.inj split
          subst none
          exact ⟨[], char :: text, rfl, rfl, here (follows.ready awake (dark rfl))⟩
      | cons first before =>
          obtain ⟨same, later⟩ := awake.calm_step plain
          have on := follows.ended ends offset
          rw [← same] at on
          have further : (front ++ [char]).length = offset + 1 := by
            rw [List.length_append, long]
            rfl
          obtain ⟨passed, rest, rfl, start, ready⟩ :=
            ih later on further nofun (List.cons.inj split).2 (.inl rfl)
          refine ⟨char :: passed, rest, rfl, ?_, ?_⟩
          · rw [start, List.length_cons]
            omega
          · have grown := OpenStatement.begun_grown long begun char
            have lead := grown.leadIn_close (mark_of_endsStatement ends) (offset + 1) (passed ++ rest)
            have whole : front ++ [char] ++ (passed ++ rest) = front ++ char :: (passed ++ rest) :=
              List.append_assoc _ _ _
            rw [whole, List.append_assoc] at ready
            rw [whole] at lead
            rw [← (List.cons.inj split).1, List.map_cons, lead]
            exact ready
  | @grown depth current offset char text statements plain dark goesOn divided ih =>
      by_cases first : current = none ∧ before = []
      · obtain ⟨rfl, rfl⟩ := first
        subst split
        refine ⟨[], char :: text, rfl, ?_, here (follows.ready awake (dark rfl))⟩
        exact divided.start_head
      · obtain ⟨same, later⟩ := awake.calm_step plain
        have on := follows.grown dark goesOn offset
        rw [← same] at on
        have further : (front ++ [char]).length = offset + 1 := by
          rw [List.length_append, long]
          rfl
        have grown := OpenStatement.begun_grown long begun char
        have some : before ≠ [] := fun empty => first ⟨behind.resolve_right (not_not_intro empty), empty⟩
        obtain ⟨passed, rest, rfl, start, ready⟩ := ih later on further
          (fun open_ member => Option.some.inj member ▸ grown) split (.inr some)
        refine ⟨char :: passed, rest, rfl, ?_, ?_⟩
        · rw [start, List.length_cons]
          omega
        · rw [List.append_assoc] at ready
          exact ready

/-- What follows the last statement of a text adds none. -/
theorem leads_read_behind {text : Text} {before : List Statement} {last : Statement}
    (split : statements text = before ++ [last]) {reader : Reader} {done : List Text}
    (awake : reader.Awake (text.drop last.stop))
    (follows : reader.calm.Follows 0 none done (text.drop last.stop)) :
    (reader.read (text.drop last.stop)).calm.leads = done := by
  obtain ⟨passed, rest, whole, stop, divided⟩ := (divided_statements text).behind split
  have behind : text.drop last.stop = rest := by
    rw [stop, Nat.zero_add, whole, List.drop_left]
  rw [behind] at awake follows ⊢
  have read := leads_read divided awake follows (List.replicate last.stop ' ')
    List.length_replicate nofun
  rwa [List.map_nil, List.append_nil] at read

/-- Where a statement of a text starts the reader is ready. -/
theorem ready_at {text : Text} {before after : List Statement} {statement : Statement}
    (split : statements text = before ++ statement :: after) :
    (Reader.start.read (text.take statement.start)).Ready (before.map (leadIn text)) := by
  obtain ⟨passed, rest, whole, start, ready⟩ := (divided_statements text).ready
    (awake_start text) (follows_start text) (List.length_nil : ([] : Text).length = 0) nofun split
    (.inl rfl)
  rw [whole, start, Nat.zero_add, List.take_left, ← whole]
  exact ready

end Code
end ShaderBridge
