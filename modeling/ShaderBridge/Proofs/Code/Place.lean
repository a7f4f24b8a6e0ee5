import ShaderBridge.Code.Bracket
import ShaderBridge.Proofs.Code.Layout
set_option autoImplicit false

/-! Where in a text something stands. A place is what has been read of a text, as far as it says
whether the next word is declared at the top level. What stands in a text, and at which places, is not
changed by the layout (`occurs_of_content_eq`) or by an exchange of stretches that have nothing to do
with it (`occurs_exchanged_iff`). -/

namespace ShaderBridge
namespace Code

open Text (Blank Exchanged startsWord endsWord spell tokens StandsIn)

/-- What has been read of a statement, as far as it tells whether a name is declared. -/
inductive Role where
  /-- Nothing yet, or qualifiers only. -/
  | opening
  /-- A word that may be a type. -/
  | typed
  /-- A type, in the list of its arguments. -/
  | argued
  /-- A declaration with at least one name. -/
  | listed
  /-- A declaration up to a comma. -/
  | comma
  /-- A declaration up to a closing brace. -/
  | closed
  /-- No declaration. -/
  | other
  deriving DecidableEq

def qualifiers : List Text := ["const", "static", "precise", "volatile", "row_major", "column_major"]

def statementWords : List Text := ["return", "else", "do", "case"]

namespace Role

/-- Named here so that the definitions below rest on it and on no proof made for another one. -/
local instance lawfulText : LawfulBEq Text := inferInstance

def word (text : Text) : Role → Role
  | opening | closed =>
    if text ∈ qualifiers then opening else if text ∈ statementWords then other else typed
  | typed | comma => listed
  | role => role

def mark (char : Char) (role : Role) : Role :=
  if char = ';' then opening
  else
    match role with
    | typed => if char = '.' then opening else if char = '<' then argued else other
    | argued => if char = '>' then typed else argued
    | listed => if char = ',' then comma else listed
    | closed => if char = ',' then comma else other
    | opening | comma | other => other

def brace : Role → Role
  | listed => closed
  | _ => opening

end Role

/-- What has been read of a text: how many brackets are open, and the statement at the top level. Behind
a bracket that closes none, nothing counts as top level. -/
inductive Place where
  | lost
  | inside (depth : Nat) (role : Role)
  deriving DecidableEq

namespace Place

def start : Place := inside 0 .opening

def pass : Place → Token → Place
  | lost, _ => lost
  | inside 0 role, .word text => inside 0 (role.word text)
  | inside (depth + 1) role, .word _ => inside (depth + 1) role
  | inside depth role, .mark char =>
    if isBlank char then inside depth role
    else if isOpener char then inside (depth + 1) (if depth = 0 then role.mark char else role)
    else if isCloser char then
      match depth with
      | 0 => lost
      | 1 => inside 0 (if char = '}' then role.brace else role)
      | depth + 2 => inside (depth + 1) role
    else if depth = 0 then inside 0 (role.mark char) else inside depth role

def across (place : Place) (parts : List Token) : Place := parts.foldl pass place

/-- A word that is read here is declared at the top level. -/
def Declares (place : Place) : Prop := place = inside 0 .typed ∨ place = inside 0 .comma

instance (place : Place) : Decidable place.Declares := inferInstanceAs (Decidable (_ ∨ _))

def Enclosed (place : Place) : Prop := place = lost ∨ ∃ depth role, place = inside (depth + 1) role

@[simp] theorem across_nil (place : Place) : place.across [] = place := rfl

@[simp] theorem across_cons (place : Place) (token : Token) (parts : List Token) :
    place.across (token :: parts) = (place.pass token).across parts := rfl

theorem across_append (place : Place) (first rest : List Token) :
    place.across (first ++ rest) = (place.across first).across rest := List.foldl_append

theorem pass_white {char : Char} (white : isBlank char = true) (place : Place) :
    place.pass (.mark char) = place := by
  cases place with
  | lost => rfl
  | inside depth role =>
      unfold pass
      cases depth <;> simp only [white, if_true]

theorem across_white (place : Place) {parts : List Token}
    (white : ∀ token ∈ parts, token.isWhite = true) : place.across parts = place := by
  induction parts with
  | nil => rfl
  | cons token parts ih =>
      obtain ⟨first, rest⟩ := List.forall_mem_cons.mp white
      cases token with
      | word text => cases first
      | mark char => rw [across_cons, pass_white first, ih rest]

theorem enclosed_pass_opener {char : Char} (opens : isOpener char = true) (place : Place) :
    (place.pass (.mark char)).Enclosed := by
  have dark : isBlank char = false := by
    unfold isOpener at opens
    simp only [Bool.or_eq_true, beq_iff_eq] at opens
    rcases opens with (rfl | rfl) | rfl <;> decide
  cases place with
  | lost => exact .inl rfl
  | inside depth role =>
      refine .inr ⟨depth, if depth = 0 then role.mark char else role, ?_⟩
      cases depth <;> simp [pass, dark, opens]

/-- Between brackets only brackets count. -/
theorem Enclosed.across {place : Place} (enclosed : place.Enclosed) {parts : List Token}
    (flat : ∀ char, .mark char ∈ parts → isOpener char = false ∧ isCloser char = false) :
    place.across parts = place := by
  have still : ∀ token ∈ parts, place.pass token = place := by
    intro token member
    rcases enclosed with rfl | ⟨depth, role, rfl⟩
    · rfl
    · cases token with
      | word text => rfl
      | mark char =>
          obtain ⟨opens, closes⟩ := flat char member
          simp [pass, opens, closes]
  clear flat
  induction parts with
  | nil => rfl
  | cons token parts ih =>
      obtain ⟨first, rest⟩ := List.forall_mem_cons.mp still
      rw [across_cons, first, ih rest]

end Place

def Occurs (Here : Place → Prop) (piece : List Token) (place : Place) (parts : List Token) : Prop :=
  ∃ first rest, parts = first ++ (piece ++ rest) ∧ Here (place.across first)

def StandsAt (Here : Place → Prop) (piece text : Text) : Prop :=
  Occurs Here (tokens piece) .start (tokens text)

/-- The name is declared at the top level of the text. -/
def DeclaredIn (name text : Text) : Prop := StandsAt Place.Declares name text

def Linked (piece : List Token) : Prop := piece ≠ [] ∧ ∀ char, .mark char ∈ piece → char = '.'

section
variable {Here : Place → Prop} {piece : List Token}

theorem occurs_cons (place : Place) (token : Token) (parts : List Token) :
    Occurs Here piece place (token :: parts) ↔
      (piece <+: token :: parts ∧ Here place) ∨ Occurs Here piece (place.pass token) parts := by
  constructor
  · rintro ⟨first, rest, same, here⟩
    cases first with
    | nil => exact .inl ⟨⟨rest, same.symm⟩, here⟩
    | cons other first =>
        obtain ⟨rfl, later⟩ := List.cons.inj same
        exact .inr ⟨first, rest, later, here⟩
  · rintro (⟨⟨rest, same⟩, here⟩ | ⟨first, rest, rfl, here⟩)
    · exact ⟨[], rest, same.symm, here⟩
    · exact ⟨token :: first, rest, rfl, here⟩

theorem Occurs.append_left {place : Place} {front parts : List Token}
    (occurs : Occurs Here piece (place.across front) parts) :
    Occurs Here piece place (front ++ parts) := by
  obtain ⟨first, rest, rfl, here⟩ := occurs
  exact ⟨front ++ first, rest, (List.append_assoc _ _ _).symm, by rwa [Place.across_append]⟩

theorem Occurs.append_right {place : Place} {parts : List Token}
    (occurs : Occurs Here piece place parts) (behind : List Token) :
    Occurs Here piece place (parts ++ behind) := by
  obtain ⟨first, rest, rfl, here⟩ := occurs
  exact ⟨first, rest ++ behind, by simp only [List.append_assoc], here⟩

theorem Occurs.subset {place : Place} {parts : List Token}
    (occurs : Occurs Here piece place parts) : piece ⊆ parts := by
  obtain ⟨first, rest, rfl, _here⟩ := occurs
  exact fun _token member => List.mem_append_right _ (List.mem_append_left _ member)

theorem occurs_true_iff (place : Place) (parts : List Token) :
    Occurs (fun _ => True) piece place parts ↔ piece <:+: parts := by
  constructor
  · rintro ⟨first, rest, rfl, _here⟩
    exact ⟨first, rest, List.append_assoc _ _ _⟩
  · rintro ⟨first, rest, rfl⟩
    exact ⟨first, rest, List.append_assoc _ _ _, trivial⟩

end

/-- What stands in a text as it is, are its tokens. -/
theorem standsIn_iff {piece text : Text} (opens : startsWord piece = true)
    (closes : endsWord piece = true) : StandsIn piece text ↔ tokens piece <:+: tokens text := by
  constructor
  · exact StandsIn.tokens_isInfix
  · rintro ⟨first, rest, same⟩
    have lexed := Text.lexed_tokens text
    have spelled := congrArg spell same
    rw [← same, List.append_assoc] at lexed
    rw [Text.spell_append, Text.spell_append, Text.spell_tokens, Text.spell_tokens] at spelled
    obtain ⟨_left, right, before⟩ := lexed.split
    obtain ⟨_piece, _right, after⟩ := right.split
    rw [Text.spell_tokens] at after
    refine ⟨spell first, spell rest, spelled.symm, ?_, after closes⟩
    refine Bool.eq_false_iff.mpr fun ends => ?_
    have starts := before ends
    have filled : piece ≠ [] := by
      rintro rfl
      cases opens
    rw [Text.spell_append, Text.spell_tokens, Text.startsWord_append filled, opens] at starts
    cases starts

/-- The words that are declared at the top level, one after the other. -/
def declaredWords : Place → List Token → List Text
  | _, [] => []
  | place, .word text :: parts =>
    let later := declaredWords (place.pass (.word text)) parts
    if place.Declares then text :: later else later
  | place, .mark char :: parts => declaredWords (place.pass (.mark char)) parts

theorem mem_declaredWords {name : Text} {place : Place} {parts : List Token} :
    name ∈ declaredWords place parts ↔ Occurs Place.Declares [.word name] place parts := by
  induction parts generalizing place with
  | nil => exact iff_of_false List.not_mem_nil fun ⟨first, rest, same, _here⟩ => by simp at same
  | cons token parts ih =>
      rw [occurs_cons, ← ih]
      cases token with
      | mark char =>
          rw [declaredWords, or_iff_right]
          rintro ⟨begins, _here⟩
          cases (List.cons_prefix_cons.mp begins).1
      | word text =>
          have begins : [Token.word name] <+: .word text :: parts ↔ name = text := by
            simp [List.cons_prefix_cons]
          rw [begins, declaredWords]
          split
          · next here => simp [here]
          · next elsewhere => simp [elsewhere]

theorem declaredIn_iff {name text : Text} (one : Text.IsOneWord name) :
    DeclaredIn name text ↔ name ∈ declaredWords .start (tokens text) := by
  unfold DeclaredIn StandsAt
  rw [Text.tokens_of_oneWord one, mem_declaredWords]

section
variable {Here : Place → Prop} {piece : List Token}

private theorem prefix_append_cons_iff {token : Token} {front rest : List Token}
    (absent : token ∉ piece) : piece <+: front ++ token :: rest ↔ piece <+: front := by
  constructor
  · intro begins
    have whole : front ++ [token] <+: front ++ token :: rest :=
      ⟨rest, List.append_assoc _ _ _⟩
    rcases List.prefix_or_prefix_of_prefix begins whole with within | beyond
    · exact (List.prefix_concat_iff.mp within).resolve_left fun same =>
        absent (same ▸ List.mem_concat_self)
    · exact absurd (beyond.subset List.mem_concat_self) absent
  · exact fun begins => begins.trans (List.prefix_append _ _)

theorem not_occurs_nil (filled : piece ≠ []) (place : Place) : ¬ Occurs Here piece place [] := by
  rintro ⟨first, rest, same, _here⟩
  obtain ⟨_empty, later⟩ := List.append_eq_nil_iff.mp same.symm
  exact filled (List.append_eq_nil_iff.mp later).1

/-- What a token does not belong to stands in front of it or behind it. -/
theorem occurs_cut {token : Token} {front rest : List Token} (filled : piece ≠ [])
    (absent : token ∉ piece) (place : Place) :
    Occurs Here piece place (front ++ token :: rest) ↔
      Occurs Here piece place front ∨
        Occurs Here piece ((place.across front).pass token) rest := by
  induction front generalizing place with
  | nil =>
      have none : ¬ piece <+: token :: rest := by
        intro begins
        cases piece with
        | nil => exact filled rfl
        | cons first others =>
            rw [(List.cons_prefix_cons.mp begins).1] at absent
            exact absent List.mem_cons_self
      rw [List.nil_append, occurs_cons, iff_false_intro (not_occurs_nil filled place),
        iff_false_intro none, false_and]
      rfl
  | cons first front ih =>
      rw [List.cons_append, occurs_cons, ih, occurs_cons, ← List.cons_append,
        prefix_append_cons_iff absent, or_assoc]
      rfl

theorem infix_cut {token : Token} {front rest : List Token} (filled : piece ≠ [])
    (absent : token ∉ piece) :
    piece <:+: front ++ token :: rest ↔ piece <:+: front ∨ piece <:+: rest := by
  rw [← occurs_true_iff .start, occurs_cut filled absent, occurs_true_iff, occurs_true_iff]

theorem not_occurs_white {white : List Token} (filled : piece ≠ [])
    (dark : ∀ token ∈ piece, token.isWhite = false)
    (blank : ∀ token ∈ white, token.isWhite = true) (place : Place) :
    ¬ Occurs Here piece place white := by
  intro occurs
  obtain ⟨token, member⟩ := List.exists_mem_of_ne_nil piece filled
  exact absurd ((dark token member).symm.trans (blank token (occurs.subset member))) nofun

theorem occurs_append_white {front white : List Token} (filled : piece ≠ [])
    (dark : ∀ token ∈ piece, token.isWhite = false)
    (blank : ∀ token ∈ white, token.isWhite = true) (place : Place) :
    Occurs Here piece place (front ++ white) ↔ Occurs Here piece place front := by
  cases white with
  | nil => rw [List.append_nil]
  | cons token white =>
      obtain ⟨first, others⟩ := List.forall_mem_cons.mp blank
      have absent : token ∉ piece := fun member =>
        absurd ((dark token member).symm.trans first) nofun
      rw [occurs_cut filled absent, or_iff_left (not_occurs_white filled dark others _)]

theorem occurs_white_append {white rest : List Token} (filled : piece ≠ [])
    (dark : ∀ token ∈ piece, token.isWhite = false)
    (blank : ∀ token ∈ white, token.isWhite = true) (place : Place) :
    Occurs Here piece place (white ++ rest) ↔ Occurs Here piece place rest := by
  induction white generalizing place with
  | nil => rfl
  | cons token white ih =>
      obtain ⟨first, others⟩ := List.forall_mem_cons.mp blank
      have absent : token ∉ piece := fun member =>
        absurd ((dark token member).symm.trans first) nofun
      have passed : place.pass token = place := place.across_white (List.forall_mem_singleton.mpr first)
      have cut : Occurs Here piece place ([] ++ token :: (white ++ rest)) ↔ _ :=
        occurs_cut filled absent place
      rw [List.nil_append, iff_false_intro (not_occurs_nil filled place), false_or] at cut
      rw [List.cons_append, cut]
      change Occurs Here piece (place.pass token) (white ++ rest) ↔ _
      rw [passed, ih others]

end

private theorem tokens_of_trim (line : Text) :
    ∃ before after : List Token, tokens line = before ++ (tokens line.trim ++ after) ∧
      (∀ token ∈ before, token.isWhite = true) ∧ ∀ token ∈ after, token.isWhite = true := by
  obtain ⟨before, after, left, right, same⟩ := Text.exists_trim line
  refine ⟨tokens before, tokens after, ?_, fun _token => left.isWhite, fun _token => right.isWhite⟩
  conv_lhs => rw [same]
  rw [Text.tokens_append fun _ends => right.startsWord,
    Text.tokens_append fun ends => absurd (left.endsWord.symm.trans ends) nofun, List.append_assoc]

private theorem across_trim (place : Place) (line : Text) :
    place.across (tokens line) = place.across (tokens line.trim) := by
  obtain ⟨before, after, same, left, right⟩ := tokens_of_trim line
  rw [same, Place.across_append, Place.across_append, place.across_white left, Place.across_white _ right]

private theorem content_line {line : Text} (flat : '\n' ∉ line) :
    content line = [line.trim] ∨ content line = [] ∧ line.trim = [] := by
  unfold content
  rw [Text.lines_of_flat flat, List.map_singleton]
  cases line.trim with
  | nil => exact .inr ⟨rfl, rfl⟩
  | cons char rest => exact .inl rfl

private theorem across_eq_content (place : Place) (text : Text) :
    place.across (tokens text) =
      (content text).foldl (fun place line => place.across (tokens line)) place := by
  have single : ∀ (line : Text), '\n' ∉ line → ∀ place : Place, place.across (tokens line) =
      (content line).foldl (fun place line => place.across (tokens line)) place := by
    intro line flat place
    rw [across_trim place line]
    rcases content_line flat with same | ⟨empty, blank⟩
    · rw [same]
      rfl
    · rw [empty, blank]
      rfl
  induction text using Text.lines_induction generalizing place with
  | last line flat => exact single line flat place
  | first line rest flat ih =>
      rw [content_append_line_feed, Text.tokens_append_mark Text.isWord_line_feed, Place.across_append,
        Place.across_cons, Place.pass_white isBlank_line_feed, List.foldl_append, single line flat, ih]

theorem across_of_content_eq {text other : Text} (same : content text = content other)
    (place : Place) : place.across (tokens text) = place.across (tokens other) := by
  rw [across_eq_content, across_eq_content, same]

section
variable {Here : Place → Prop} {piece : List Token} (linked : Linked piece)
include linked

theorem Linked.dark : ∀ token ∈ piece, token.isWhite = false := by
  intro token member
  cases token with
  | word text => rfl
  | mark char =>
      rw [linked.2 char member]
      decide

theorem Linked.not_mem {char : Char} (other : char ≠ '.') : .mark char ∉ piece :=
  fun member => other (linked.2 char member)

private theorem occurs_trim (place : Place) (line : Text) :
    Occurs Here piece place (tokens line) ↔ Occurs Here piece place (tokens line.trim) := by
  obtain ⟨before, after, same, left, right⟩ := tokens_of_trim line
  rw [same, occurs_white_append linked.1 linked.dark left,
    occurs_append_white linked.1 linked.dark right]

def OccursInLines (Here : Place → Prop) (piece : List Token) : Place → List Text → Prop
  | _, [] => False
  | place, line :: lines =>
    Occurs Here piece place (tokens line) ∨
      OccursInLines Here piece (place.across (tokens line)) lines

private theorem occurs_iff_content (place : Place) (text : Text) :
    Occurs Here piece place (tokens text) ↔ OccursInLines Here piece place (content text) := by
  have behind : ∀ (line : Text), '\n' ∉ line → ∀ (place : Place) (lines : List Text),
      OccursInLines Here piece place (content line ++ lines) ↔
        Occurs Here piece place (tokens line) ∨
          OccursInLines Here piece (place.across (tokens line)) lines := by
    intro line flat place lines
    rw [occurs_trim linked, across_trim place line]
    rcases content_line flat with same | ⟨empty, blank⟩
    · rw [same]
      exact Iff.rfl
    · rw [empty, blank]
      exact (or_iff_right (not_occurs_nil linked.1 place)).symm
  induction text using Text.lines_induction generalizing place with
  | last line flat =>
      have same := behind line flat place []
      rw [List.append_nil] at same
      exact (same.trans (or_iff_left id)).symm
  | first line rest flat ih =>
      have later : Occurs Here piece (place.across (tokens line)) (tokens rest) ↔
          OccursInLines Here piece (place.across (tokens line)) (content rest) := ih _
      rw [content_append_line_feed, Text.tokens_append_mark Text.isWord_line_feed,
        occurs_cut linked.1 (linked.not_mem (by decide)), Place.pass_white isBlank_line_feed,
        later, behind line flat]

/-- White space around the lines changes nothing in what stands in a text. -/
theorem occurs_of_content_eq {text other : Text} (same : content text = content other)
    (place : Place) :
    Occurs Here piece place (tokens text) ↔ Occurs Here piece place (tokens other) := by
  rw [occurs_iff_content linked, occurs_iff_content linked, same]

theorem infix_tokens_unlines (parts : List Text) :
    piece <:+: tokens (Text.unlines parts) ↔ ∃ part ∈ parts, piece <:+: tokens part := by
  induction parts with
  | nil => simpa [Text.unlines, Text.join] using linked.1
  | cons part parts ih =>
      cases parts with
      | nil => simp [Text.unlines_singleton]
      | cons next parts =>
          rw [Text.unlines_cons_cons, Text.tokens_append_mark Text.isWord_line_feed,
            infix_cut linked.1 (linked.not_mem (by decide)), ih]
          simp only [List.mem_cons, exists_eq_or_imp]

end

/-- The stretch reaches neither into the piece nor around its last word. -/
def Distant (piece : List Token) (last : Text) (stretch : List Token) : Prop :=
  .word last ∉ stretch ∧ ∃ front token, stretch = front ++ [token] ∧ token ∉ piece

section
variable {Here : Place → Prop} {piece : List Token} {last : Text}

private theorem Distant.begins {stretch rest part : List Token} (distant : Distant piece last stretch)
    (ends : part.getLast? = some (.word last)) (within : part ⊆ piece) :
    ¬ part <+: stretch ++ rest := by
  obtain ⟨absent, front, token, rfl, apart⟩ := distant
  intro begins
  rcases List.prefix_or_prefix_of_prefix begins (List.prefix_append _ rest) with inside | beyond
  · exact absent (inside.subset (List.mem_of_getLast? ends))
  · exact apart (within (beyond.subset (List.mem_concat_self)))

theorem Distant.occurs {stretch rest : List Token} (distant : Distant piece last stretch)
    (ends : piece.getLast? = some (.word last)) {place : Place}
    (occurs : Occurs Here piece place (stretch ++ rest)) :
    Occurs Here piece (place.across stretch) rest := by
  obtain ⟨absent, front, token, rfl, apart⟩ := distant
  have filled : piece ≠ [] := by
    rintro rfl
    cases ends
  rw [List.append_assoc, List.singleton_append, occurs_cut filled apart] at occurs
  rcases occurs with early | late
  · refine absurd (early.subset (List.mem_of_getLast? ends)) fun member => ?_
    exact absent (List.mem_append_left _ member)
  · rwa [Place.across_append]

private theorem prefix_exchanged {Change : List Token → List Token → Prop} {parts others : List Token}
    (exchanged : Exchanged Change parts others)
    (distant : ∀ old new, Change old new → Distant piece last old) {part : List Token}
    (ends : part.getLast? = some (.word last)) (within : part ⊆ piece)
    (begins : part <+: parts) : part <+: others := by
  induction exchanged generalizing part with
  | nil =>
      rw [List.prefix_nil.mp begins] at ends
      cases ends
  | kept _exchanged ih =>
      cases part with
      | nil => cases ends
      | cons token part =>
          obtain ⟨rfl, later⟩ := List.cons_prefix_cons.mp begins
          refine List.cons_prefix_cons.mpr ⟨rfl, ?_⟩
          cases part with
          | nil => exact List.nil_prefix
          | cons next part =>
              exact ih ends (fun _token member => within (List.mem_cons_of_mem _ member)) later
  | found change _exchanged _ih =>
      exact absurd begins ((distant _ _ change).begins ends within)

private theorem occurs_exchanged {Change : List Token → List Token → Prop} {parts others : List Token}
    (exchanged : Exchanged Change parts others) (ends : piece.getLast? = some (.word last))
    (distant : ∀ old new, Change old new → Distant piece last old)
    (level : ∀ old new, Change old new → ∀ place : Place, place.across old = place.across new)
    {place : Place} (occurs : Occurs Here piece place parts) : Occurs Here piece place others := by
  induction exchanged generalizing place with
  | nil => exact occurs
  | kept exchanged ih =>
      rw [occurs_cons] at occurs ⊢
      refine occurs.imp (And.imp_left fun begins => ?_) fun later => ih later
      exact prefix_exchanged (.kept exchanged) distant ends (List.Subset.refl _) begins
  | found change _exchanged ih =>
      have behind := ih ((distant _ _ change).occurs ends occurs)
      rw [level _ _ change] at behind
      exact behind.append_left

/-- What has nothing to do with the stretches that are exchanged stands where it stood. -/
theorem occurs_exchanged_iff {Change : List Token → List Token → Prop} {parts others : List Token}
    (exchanged : Exchanged Change parts others) (ends : piece.getLast? = some (.word last))
    (distant : ∀ old new, Change old new → Distant piece last old ∧ Distant piece last new)
    (level : ∀ old new, Change old new → ∀ place : Place, place.across old = place.across new)
    (place : Place) : Occurs Here piece place others ↔ Occurs Here piece place parts := by
  constructor
  · exact occurs_exchanged exchanged.symm ends (fun old new change => (distant new old change).2)
      fun old new change place => (level new old change place).symm
  · exact occurs_exchanged exchanged ends (fun old new change => (distant old new change).1) level

end

end Code
end ShaderBridge
