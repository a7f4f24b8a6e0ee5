import ShaderBridge.Proofs.Code.Place
import ShaderBridge.Proofs.Code.Reading
set_option autoImplicit false

/-! Places between two statements. The reader of statements and the place behind a text go along with
each other, so nothing is declared where a statement starts (`between_at`). What stands in a text that
is cut off there, with a return behind it, stands in front of the return or is part of its value
(`occurs_returned_iff`), and in the value of a return nothing is declared. -/

namespace ShaderBridge
namespace Code

open Text (Blank IsOneWord Lexed startsWord endsWord spell tokens)

def Place.Between (place : Place) : Prop :=
  place = .lost ∨ place = .inside 0 .opening ∨ place = .inside 0 .closed

/-- The reader has as many brackets open as the place, and begins a statement where the place does. -/
def Reader.Agrees (reader : Reader) (place : Place) : Prop :=
  match place with
  | .lost => True
  | .inside depth role => reader.depth = depth ∧
    match reader.clause with
    | .none => depth = 0 ∧ role = .opening
    | .closed _ => depth = 0 ∧ (role = .opening ∨ role = .closed)
    | .begun _ _ => True

namespace Reader

variable {reader : Reader} {place : Place}

theorem Agrees.between (agrees : reader.Agrees place)
    (ready : reader.clause = .none ∨ ∃ lead, reader.clause = .closed lead) : place.Between := by
  cases place with
  | lost => exact .inl rfl
  | inside depth role =>
      obtain ⟨_level, clause⟩ := agrees
      rcases ready with none | ⟨lead, closed⟩
      · rw [none] at clause
        obtain ⟨rfl, rfl⟩ := clause
        exact .inr (.inl rfl)
      · rw [closed] at clause
        obtain ⟨rfl, rfl | rfl⟩ := clause
        · exact .inr (.inl rfl)
        · exact .inr (.inr rfl)

private theorem agrees_begun {depth : Nat} {role : Role} (level : reader.depth = depth)
    (begun : ∃ lead ended, reader.clause = .begun lead ended) :
    reader.Agrees (.inside depth role) := by
  obtain ⟨lead, ended, same⟩ := begun
  refine ⟨level, ?_⟩
  rw [same]
  trivial

/-- A letter is part of a statement. -/
theorem take_letter {char : Char} (letter : isWord char = true) (reader : Reader) :
    (reader.take char).depth = reader.depth ∧
      ∃ lead ended, (reader.take char).clause = .begun lead ended := by
  have marks : ∀ mark ∈ (";\x7d([\x7b)]" : Text), isWord mark = false := by decide
  have apart : ∀ mark ∈ (";\x7d([\x7b)]" : Text), char ≠ mark := by
    rintro mark member rfl
    exact absurd ((marks char member).symm.trans letter) nofun
  have still : depthAfter char reader.depth = reader.depth := by
    have opens : isOpener char = false := by
      simp [isOpener, apart '(' (by decide), apart '[' (by decide), apart '\x7b' (by decide)]
    have closes : isCloser char = false := by
      simp [isCloser, apart ')' (by decide), apart ']' (by decide), apart '\x7d' (by decide)]
    exact depthAfter_plain opens closes reader.depth
  obtain ⟨lead, ended, deep, clause⟩ := take_dark (isBlank_of_isWord letter) reader
  rw [if_neg fun both => apart ';' (by decide) both.2,
    if_neg fun both => apart '\x7d' (by decide) both.2] at clause
  exact ⟨deep.trans still, lead, ended, clause⟩

private theorem agrees_blank {char : Char} (white : isBlank char = true)
    (agrees : reader.Agrees place) : (reader.take char).Agrees place := by
  rcases reader.clause_cases with between | ⟨lead, ended, begun⟩
  · rwa [take_blank white between]
  · rw [take_white white begun]
    cases place with
    | lost => trivial
    | inside depth role => exact ⟨agrees.1, trivial⟩

/-- A mark is taken by the reader and passed by the place. -/
theorem Agrees.mark (agrees : reader.Agrees place) (char : Char) :
    (reader.take char).Agrees (place.pass (.mark char)) := by
  cases white : isBlank char with
  | true =>
      rw [Place.pass_white white]
      exact agrees_blank white agrees
  | false =>
      obtain ⟨lead, ended, deep, clause⟩ := take_dark white reader
      cases place with
      | lost => trivial
      | inside depth role =>
          have level := agrees.1
          rw [level] at deep clause
          -- the bracket that closes the last open one may end a statement
          have begun : depthAfter char depth ≠ 0 ∨ char ≠ ';' ∧ char ≠ '}' →
              ∃ lead ended, (reader.take char).clause = .begun lead ended := by
            intro other
            refine ⟨lead, ended, clause.trans ?_⟩
            rw [if_neg fun both => other.elim (· both.1) (·.1 both.2),
              if_neg fun both => other.elim (· both.1) (·.2 both.2)]
          by_cases opens : isOpener char = true
          · have more : depthAfter char depth = (depth + 1 : Nat) := depthAfter_opener opens depth
            have passed : (Place.inside depth role).pass (.mark char) =
                .inside (depth + 1) (if depth = 0 then role.mark char else role) := by
              cases depth <;> simp [Place.pass, white, opens]
            rw [passed]
            exact agrees_begun (deep.trans more) (begun (.inl (by omega)))
          · rw [Bool.not_eq_true] at opens
            by_cases closes : isCloser char = true
            · have less : depthAfter char depth = (depth : Int) - 1 := depthAfter_closer closes depth
              rcases depth with _ | _ | depth
              · have passed : (Place.inside 0 role).pass (.mark char) = .lost := by
                  simp [Place.pass, white, opens, closes]
                rw [passed]
                trivial
              · have passed : (Place.inside 1 role).pass (.mark char) =
                    .inside 0 (if char = '}' then role.brace else role) := by
                  simp [Place.pass, white, opens, closes]
                have semicolon : char ≠ ';' := by
                  rintro rfl
                  cases closes
                rw [passed]
                by_cases brace : char = '}'
                · rw [if_neg fun both => semicolon both.2, if_pos ⟨by rw [less]; rfl, brace⟩] at clause
                  refine ⟨deep.trans less, ?_⟩
                  rw [clause, if_pos brace]
                  exact ⟨rfl, by cases role <;> simp [Role.brace]⟩
                · exact agrees_begun (deep.trans less) (begun (.inr ⟨semicolon, brace⟩))
              · have passed : (Place.inside (depth + 2) role).pass (.mark char) =
                    .inside (depth + 1) role := by
                  simp [Place.pass, white, opens, closes]
                rw [passed]
                exact agrees_begun (by omega) (begun (.inl (by omega)))
            · rw [Bool.not_eq_true] at closes
              have still : depthAfter char depth = (depth : Int) :=
                depthAfter_plain opens closes depth
              have brace : char ≠ '}' := by
                rintro rfl
                cases closes
              cases depth with
              | zero =>
                  have passed : (Place.inside 0 role).pass (.mark char) =
                      .inside 0 (role.mark char) := by
                    simp [Place.pass, white, opens, closes]
                  rw [passed]
                  by_cases semicolon : char = ';'
                  · rw [if_pos ⟨still, semicolon⟩] at clause
                    refine ⟨deep.trans still, ?_⟩
                    rw [clause]
                    exact ⟨rfl, if_pos semicolon⟩
                  · exact agrees_begun (deep.trans still) (begun (.inr ⟨semicolon, brace⟩))
              | succ depth =>
                  have passed : (Place.inside (depth + 1) role).pass (.mark char) =
                      .inside (depth + 1) role := by
                    simp [Place.pass, white, opens, closes]
                  rw [passed]
                  exact agrees_begun (deep.trans still) (begun (.inl (by omega)))

private theorem read_word {word rest : Text} (letters : ∀ char ∈ word, isWord char = true)
    (plain : Uncommented (word ++ rest)) (awake : reader.Awake (word ++ rest)) :
    (reader.read word).calm.depth = reader.calm.depth ∧
      (word ≠ [] → ∃ lead ended, (reader.read word).calm.clause = .begun lead ended) := by
  induction word generalizing reader with
  | nil => exact ⟨rfl, fun filled => absurd rfl filled⟩
  | cons char word ih =>
      obtain ⟨letter, others⟩ := List.forall_mem_cons.mp letters
      obtain ⟨stepped, on⟩ := awake.calm_step plain.comment_eq_none
      obtain ⟨level, begun⟩ := take_letter letter reader.calm
      obtain ⟨deep, later⟩ := ih others plain.of_cons on
      rw [read_cons]
      refine ⟨deep.trans (stepped ▸ level), fun _filled => ?_⟩
      cases word with
      | nil => exact stepped ▸ begun
      | cons next word => exact later (List.cons_ne_nil _ _)

/-- The reader and the place agree behind a text without comments if they do in front of it. -/
theorem Agrees.read {parts : List Token} (lexed : Lexed parts) (plain : Uncommented (spell parts))
    (awake : reader.Awake (spell parts)) (agrees : reader.calm.Agrees place) :
    (reader.read (spell parts)).calm.Agrees (place.across parts) := by
  induction lexed generalizing reader place with
  | nil => exact agrees
  | @mark char parts _mark _lexed ih =>
      obtain ⟨stepped, on⟩ := awake.calm_step plain.comment_eq_none
      exact ih plain.of_cons on (stepped ▸ agrees.mark char)
  | @word text parts one _apart _lexed ih =>
      rw [Text.spell_cons] at plain awake ⊢
      obtain ⟨deep, begun⟩ := read_word one.2 plain awake
      rw [read_append]
      refine ih (List.IsChain.right_of_append plain) (awake.read plain) ?_
      cases place with
      | lost => trivial
      | inside depth role =>
          cases depth <;> exact agrees_begun (deep.trans agrees.1) (begun one.1)

end Reader

section
variable {text : Text} (plain : Uncommented text) {before after : List Statement}
  {statement : Statement}
include plain

/-- In front of a statement the place is between two statements, and no word goes on. -/
theorem between_at (split : statements text = before ++ statement :: after) :
    (Place.start.across (tokens (text.take statement.start))).Between ∧
      endsWord (text.take statement.start) = false := by
  let front := text.take statement.start
  have clear : Uncommented front := List.IsChain.prefix plain (List.take_prefix _ _)
  obtain ⟨code, _level, clause⟩ := ready_at split
  have ready : (Reader.start.read front).clause = .none ∨
      ∃ lead, (Reader.start.read front).clause = .closed lead :=
    clause.imp And.left fun ⟨lead, closed, _done⟩ => ⟨lead, closed⟩
  have idle : (Reader.start.read front).calm = Reader.start.read front := Reader.calm_of_code code
  constructor
  · have begins : Reader.start.calm.Agrees .start := ⟨rfl, rfl, rfl⟩
    have agrees := begins.read (Text.lexed_tokens front) (by rwa [Text.spell_tokens]) (awake_start _)
    rw [Text.spell_tokens, idle] at agrees
    exact agrees.between ready
  · refine Bool.eq_false_iff.mpr fun ends => ?_
    change endsWord front = true at ends
    rcases List.eq_nil_or_concat front with empty | ⟨early, letter, whole⟩
    · rw [empty] at ends
      cases ends
    · rw [List.concat_eq_append] at whole
      rw [whole] at ends clear ready idle
      rw [Text.endsWord_concat] at ends
      have awake := (awake_start (early ++ [letter])).read clear
      obtain ⟨stepped, _on⟩ := awake.calm_step (Uncommented.comment_eq_none (.singleton letter))
      obtain ⟨_level, lead, ended, begun⟩ :=
        Reader.take_letter ends (Reader.start.read early).calm
      rw [← stepped] at begun
      rw [← idle, Reader.read_append] at ready
      rcases ready with none | ⟨lead, closed⟩
      · exact absurd (none.symm.trans begun) nofun
      · exact absurd (closed.symm.trans begun) nofun

/-- Nothing but white space follows the last statement. -/
theorem blank_behind (split : statements text = before ++ [statement]) :
    Blank (text.drop statement.stop) := by
  have blank : ∀ {depth : Int} {current : Option OpenStatement} {offset : Nat} {text : Text}
      {statements : List Statement}, Divided depth current offset text statements →
        Uncommented text → statements = [] → current = none ∧ Blank text := by
    intro depth current offset text statements divided plain none
    induction divided with
    | done => exact ⟨rfl, nofun⟩
    | last => cases none
    | @comment depth current offset stretch rest _statements found filled _divided _ih =>
        cases stretch with
        | nil => exact absurd rfl filled
        | cons char stretch => exact absurd (found.symm.trans plain.comment_eq_none) nofun
    | blank white _divided ih =>
        exact ⟨rfl, List.forall_mem_cons.mpr ⟨white, (ih plain.of_cons none).2⟩⟩
    | ended _plain _dark _ends _divided _ih => cases none
    | grown _plain _dark _goesOn _divided ih => exact absurd (ih plain.of_cons none).1 nofun
  obtain ⟨passed, rest, whole, stop, divided⟩ := (divided_statements text).behind split
  rw [stop, Nat.zero_add, whole, List.drop_left]
  rw [whole] at plain
  exact (blank divided (List.IsChain.right_of_append plain) rfl).2

end

def Place.Idle (place : Place) : Prop := place = .lost ∨ ∃ depth, place = .inside depth .other

theorem Place.Between.pass_return {place : Place} (between : place.Between) :
    (place.pass (.word "return")).Idle := by
  rcases between with rfl | rfl | rfl
  · exact .inl rfl
  · exact .inr ⟨0, by decide⟩
  · exact .inr ⟨0, by decide⟩

private theorem Place.Idle.pass {place : Place} (idle : place.Idle) {token : Token}
    (goesOn : ∀ char, token = .mark char → char ≠ ';' ∧ char ≠ '}') : (place.pass token).Idle := by
  rcases idle with rfl | ⟨depth, rfl⟩
  · exact .inl rfl
  · cases token with
    | word text => exact .inr ⟨depth, by cases depth <;> rfl⟩
    | mark char =>
        obtain ⟨semicolon, brace⟩ := goesOn char rfl
        cases white : isBlank char with
        | true => exact .inr ⟨depth, Place.pass_white white _⟩
        | false =>
            by_cases opens : isOpener char = true
            · refine .inr ⟨depth + 1, ?_⟩
              cases depth <;> simp [Place.pass, Role.mark, white, opens, semicolon]
            · by_cases closes : isCloser char = true
              · rcases depth with _ | _ | depth
                · exact .inl (by simp [Place.pass, white, opens, closes])
                · exact .inr ⟨0, by simp [Place.pass, white, opens, closes, brace]⟩
                · exact .inr ⟨depth + 1, by simp [Place.pass, white, opens, closes]⟩
              · refine .inr ⟨depth, ?_⟩
                cases depth <;> simp [Place.pass, Role.mark, white, opens, closes, semicolon]

/-- As long as the statement goes on, nothing is declared. -/
theorem Place.Idle.not_occurs {place : Place} (idle : place.Idle) {piece parts : List Token}
    (goesOn : ∀ char, .mark char ∈ parts → char ≠ ';' ∧ char ≠ '}') :
    ¬ Occurs Place.Declares piece place parts := by
  rintro ⟨first, rest, rfl, here⟩
  have still : (place.across first).Idle := by
    have early : ∀ char, .mark char ∈ first → char ≠ ';' ∧ char ≠ '}' := fun char member =>
      goesOn char (List.mem_append_left _ member)
    clear goesOn here
    induction first generalizing place with
    | nil => exact idle
    | cons token first ih =>
        refine ih (idle.pass fun char same => early char ?_) fun char member => early char ?_
        · exact same ▸ List.mem_cons_self
        · exact List.mem_cons_of_mem _ member
  rcases still with lost | ⟨depth, inside⟩
  · rw [lost] at here
    rcases here with typed | comma
    · cases typed
    · cases comma
  · rw [inside] at here
    rcases here with typed | comma
    · cases typed
    · cases comma

/-- What stands in a text that ends in a return stands in front of the return or in its value. -/
theorem occurs_returned_iff {Here : Place → Prop} {piece : List Token} (linked : Linked piece)
    (foreign : .word "return" ∉ piece) {front value rest : Text} (cut : endsWord front = false)
    (blank : Blank rest) (place : Place) :
    Occurs Here piece place (tokens (front ++ "return " ++ value ++ ";" ++ rest)) ↔
      Occurs Here piece place (tokens front) ∨
        Occurs Here piece ((place.across (tokens front)).pass (.word "return")) (tokens value) := by
  have whole : front ++ "return " ++ value ++ ";" ++ rest =
      front ++ ("return" ++ ' ' :: (value ++ ';' :: rest)) := by
    simp only [List.append_assoc]
    rfl
  have single : tokens "return" = [.word "return"] := by decide
  have space : ∀ token ∈ [Token.mark ' '], token.isWhite = true := by decide
  rw [whole, Text.tokens_append fun ends => absurd (cut.symm.trans ends) nofun,
    Text.tokens_append_mark (by decide), Text.tokens_append_mark (by decide), single,
    List.singleton_append, occurs_cut linked.1 foreign, ← List.singleton_append,
    occurs_white_append linked.1 linked.dark space, occurs_cut linked.1 (linked.not_mem (by decide)),
    or_iff_left (not_occurs_white linked.1 linked.dark (fun _token => blank.isWhite) _)]

end Code
end ShaderBridge
