import ShaderBridge.Proofs.Code.Call
import ShaderBridge.Proofs.Export.Declaration
import ShaderBridge.Proofs.Text.Removal
set_option autoImplicit false

/-! The functions of a preamble. What a node keeps of the preamble is what no declaration of another kind
takes away: the head of a function stays, with a place where nothing is open in front of it
(`HeadAt.exists_kept`). -/

namespace ShaderBridge
namespace Export

open Code
open Text (Behind Blank IsOneWord endsWord startsWord spell tokens words)

/-- The words that begin what is left out, or stand in it. -/
def droppedWords : List Text := recordWords ++ (["static", "register"] : List Text)

def foreignWords : List Text := droppedWords ++ (["for", "while"] : List Text)

private theorem foreign_of_record {keyword : Text} (known : keyword ∈ recordWords) :
    keyword ∈ foreignWords :=
  List.mem_append_left _ (List.mem_append_left _ known)

structure IsHead (kind name head : Text) : Prop where
  filled : kind ≠ []
  type : ∀ char ∈ kind, isTypeChar char = true
  named : isIdentifier name = true
  split : ∃ gap space inside, head = kind ++ (gap ++ (name ++ (space ++ '(' :: (inside ++ ['{'])))) ∧
    gap ≠ [] ∧ Blank gap ∧ Blank space ∧ ')' ∈ inside ∧ ';' ∉ inside ∧ '{' ∉ inside

/-- A head that holds no word of another declaration, and none of a loop. -/
structure IsPlainHead (kind name head : Text) : Prop extends IsHead kind name head where
  plain : ∀ word ∈ foreignWords, word ∉ words head

theorem isTypeChar_iff {char : Char} : isTypeChar char = true ↔ InType char := by
  simp [isTypeChar, InType, or_assoc]

theorem solid_of_isTypeChar {char : Char} (type : isTypeChar char = true) :
    isBlank char = false := by
  refine Bool.eq_false_iff.mpr fun blank => ?_
  rcases isTypeChar_iff.mp type with word | rfl | rfl
  · exact absurd ((isWord_of_isBlank blank).symm.trans word) nofun
  · exact absurd blank (by decide)
  · exact absurd blank (by decide)

theorem isTypeChar_of_isBlank {char : Char} (blank : isBlank char = true) : isTypeChar char = false :=
  Bool.eq_false_iff.mpr fun type => absurd ((solid_of_isTypeChar type).symm.trans blank) nofun

namespace IsHead

variable {kind name head : Text} (shape : IsHead kind name head)
include shape

theorem starts : ∃ char more, head = char :: more ∧ isTypeChar char = true := by
  obtain ⟨gap, space, inside, rfl, _split⟩ := shape.split
  cases first : kind with
  | nil => exact absurd first shape.filled
  | cons char more => exact ⟨char, _, rfl, shape.type char (first ▸ List.mem_cons_self)⟩

theorem ne_nil : head ≠ [] := by
  obtain ⟨char, more, rfl, _type⟩ := shape.starts
  exact List.cons_ne_nil _ _

theorem opens : ∃ declared rest, head = declared ++ '(' :: rest ∧ ∀ char ∈ declared, InDeclarator char := by
  obtain ⟨gap, space, inside, rfl, _filled, white, blank, _inner⟩ := shape.split
  have letters := (isIdentifier_iff.mp shape.named).1.2
  refine ⟨kind ++ (gap ++ (name ++ space)), inside ++ ['{'], by simp, ?_⟩
  simp only [List.forall_mem_append]
  refine ⟨fun char member => .inr (shape.type char member), fun char member => .inl (white char member),
    fun char member => .inr (isTypeChar_iff.mpr (.inl (letters char member))),
    fun char member => .inl (blank char member)⟩

theorem ends : ∃ front, head = front ++ ['{'] ∧ '{' ∉ front := by
  obtain ⟨declared, rest, same, letters⟩ := shape.opens
  obtain ⟨gap, space, inside, rfl, _filled, white, blank, _closed, _semicolon, brace⟩ := shape.split
  have word : isWord '{' = false := by decide
  have type : isTypeChar '{' = false := by decide
  have dark : isBlank '{' = false := by decide
  refine ⟨kind ++ (gap ++ (name ++ (space ++ '(' :: inside))), by simp, ?_⟩
  simp only [List.mem_append, List.mem_cons, not_or]
  refine ⟨fun member => ?_, fun member => ?_, fun member => ?_, fun member => ?_, by decide, brace⟩
  · exact absurd (type.symm.trans (shape.type _ member)) nofun
  · exact absurd (dark.symm.trans (white _ member)) nofun
  · exact absurd (word.symm.trans ((isIdentifier_iff.mp shape.named).1.2 _ member)) nofun
  · exact absurd (dark.symm.trans (blank _ member)) nofun

theorem mem_words_of_mem {word : Text} (member : word ∈ name :: words kind) : word ∈ words head := by
  obtain ⟨gap, space, inside, rfl, filled, white, blank, _inner⟩ := shape.split
  have one := (isIdentifier_iff.mp shape.named).1
  have behind : startsWord (space ++ '(' :: (inside ++ ['{'])) = false :=
    Text.startsWord_append_of_not blank.startsWord (by decide : isWord '(' = false)
  rw [Text.words_append fun _ends => by rw [Text.startsWord_append filled]; exact white.startsWord]
  rcases List.mem_cons.mp member with rfl | inside
  · refine List.mem_append_right _ ((Text.mem_words_iff_standsIn one).mpr ?_)
    exact ⟨gap, _, (List.append_assoc _ _ _).symm, white.endsWord, behind⟩
  · exact List.mem_append_left _ inside

variable {back : Text}

theorem exists_reached {right behind : Text} (late : head ++ back = right ++ behind)
    (reached : right ≠ []) : ∃ char more, right = char :: more ∧ isTypeChar char = true := by
  obtain ⟨char, more, same, type⟩ := shape.starts
  cases right with
  | nil => exact absurd rfl reached
  | cons other right =>
      rw [same] at late
      obtain ⟨rfl, _rest⟩ := List.cons.inj late
      exact ⟨char, right, rfl, type⟩

theorem append_eq (back : Text) : ∃ declared rest, head ++ back = declared ++ '(' :: rest ∧
    ∀ char ∈ declared, InDeclarator char := by
  obtain ⟨declared, rest, same, letters⟩ := shape.opens
  exact ⟨declared, rest ++ back, by rw [same, List.append_assoc, List.cons_append], letters⟩

/-- A word that is read from a place in a head, with no brace up to its end, is a word of the head. -/
theorem mem_words {first left lead keyword rest : Text} (split : head = first ++ left)
    (filled : left ≠ []) (same : left ++ back = lead ++ (keyword ++ rest)) (absent : '{' ∉ lead ++ keyword)
    (one : IsOneWord keyword) (opens : endsWord (first ++ lead) = false)
    (next : startsWord rest = false) : keyword ∈ words head := by
  obtain ⟨whole, ends, _free⟩ := shape.ends
  obtain ⟨inner, rfl⟩ : ∃ inner, left = inner ++ ['{'] := by
    have last : left.getLast? = some '{' := by
      rw [← List.getLast?_append_of_ne_nil first filled, ← split, ends, List.getLast?_concat]
    exact List.getLast?_eq_some_iff.mp last
  rw [List.append_assoc, List.singleton_append, ← List.append_assoc lead] at same
  obtain ⟨more, rfl, rest⟩ := Text.ends_in_front same absent
  refine (Text.mem_words_iff_standsIn one).mpr
    ⟨first ++ lead, more ++ ['{'], by rw [split]; simp, opens, ?_⟩
  cases more with
  | nil => decide
  | cons head more =>
      rw [rest] at next
      exact next

end IsHead

/-- Nothing is open behind the text: the last parenthesis is one that closes, and behind the last one
that opens there is a semicolon, or a brace. -/
structure Closed (front : Text) : Prop where
  parenthesis : Behind (fun char => char != '(' && char != ')') (· == ')') front
  ended : Behind (fun char => char != '(' && (char != ';' && char != '{'))
    (fun char => char == ';' || char == '{') front

/-- The line is white space so far. -/
def Lined (front : Text) : Prop := Behind (fun char => isBlank char && char != '\n') (· == '\n') front

def recordEnds (text : Text) : Bool :=
  match text.dropWhile fun char => !(char == '{' || char == ';') with
  | [] => false
  | mark :: late => mark == ';' || late.any fun char => char == '{' || char == '}'

/-- Each of the words stands in such a place. -/
def Placed (place : Text → Prop) (keywords : List Text) (text : Text) : Prop :=
  ∀ word ∈ keywords, ∀ first later, tokens text = first ++ .word word :: later → place (spell first)

/-- The records that begin in the text end in it. -/
def RecordsEnd (text : Text) : Prop :=
  ∀ word ∈ recordWords, ∀ first later, tokens text = first ++ .word word :: later →
    recordEnds (spell later) = true

section
variable {place : Text → Prop} {keywords : List Text} {text : Text}

private theorem forall_split_iff {parts : List Token} {token : Token} {holds : List Token → List Token → Prop} :
    (∀ first later, parts = first ++ token :: later → holds first later) ↔
      ∀ count < parts.length, parts[count]? = some token →
        holds (parts.take count) (parts.drop (count + 1)) := by
  constructor
  · intro each count within here
    obtain ⟨_inside, same⟩ := List.getElem?_eq_some_iff.mp here
    refine each _ _ ?_
    rw [← same, List.getElem_cons_drop, List.take_append_drop]
  · rintro each first later rfl
    have here := each first.length (by simp) (by simp)
    simpa using here

instance : DecidablePred Closed := fun _front =>
  decidable_of_iff (_ ∧ _) ⟨fun both => ⟨both.1, both.2⟩, fun closed => ⟨closed.parenthesis, closed.ended⟩⟩

instance : DecidablePred Lined := fun _front => inferInstanceAs (Decidable (Behind _ _ _))

instance [DecidablePred place] : Decidable (Placed place keywords text) :=
  decidable_of_iff' (∀ word ∈ keywords, ∀ count < (tokens text).length,
      (tokens text)[count]? = some (.word word) → place (spell ((tokens text).take count)))
    (forall₂_congr fun _word _known => forall_split_iff)

instance : DecidablePred RecordsEnd := fun text =>
  decidable_of_iff' (∀ word ∈ recordWords, ∀ count < (tokens text).length,
      (tokens text)[count]? = some (.word word) → recordEnds (spell ((tokens text).drop (count + 1))) = true)
    (forall₂_congr fun _word _known => forall_split_iff)

private theorem exists_of_recordEnds (ends : recordEnds text = true) :
    ∃ early mark late, text = early ++ mark :: late ∧
      (∀ char ∈ early, (char == '{' || char == ';') = false) ∧
        (mark = ';' ∨ mark = '{' ∧ ∃ char ∈ late, (char == '{' || char == '}') = true) := by
  have split := List.takeWhile_append_dropWhile (p := fun char => !(char == '{' || char == ';')) (l := text)
  have first := List.head?_dropWhile_not (fun char => !(char == '{' || char == ';')) text
  unfold recordEnds at ends
  cases behind : text.dropWhile fun char => !(char == '{' || char == ';') with
  | nil =>
      rw [behind] at ends
      cases ends
  | cons mark late =>
      rw [behind] at split ends first
      have marked : mark = '{' ∨ mark = ';' := or_iff_not_imp_left.mpr (by simpa using first)
      have known : mark = ';' ∨ late.any (fun char => char == '{' || char == '}') = true := by
        simpa using ends
      refine ⟨_, mark, late, split.symm, fun char member => ?_, ?_⟩
      · simpa using List.mem_takeWhile_imp member
      · rcases known with semicolon | inside
        · exact .inl semicolon
        · exact marked.symm.imp_right fun brace => ⟨brace, List.any_eq_true.mp inside⟩

end

private theorem oneWord_foreign : ∀ word ∈ foreignWords, IsOneWord word := by
  have each : ∀ word ∈ foreignWords, word ≠ [] ∧ word.all isWord = true := by decide
  exact fun word member => ⟨(each word member).1, List.all_eq_true.mp (each word member).2⟩

section
variable {text first keyword rest : Text} (one : IsOneWord keyword)
  (split : text = first ++ (keyword ++ rest)) (apart : endsWord first = false)
  (behind : startsWord rest = false)
include one split apart behind

private theorem tokens_of_split : tokens text = tokens first ++ .word keyword :: tokens rest := by
  rw [split, Text.tokens_append fun ends => absurd (apart.symm.trans ends) nofun,
    Text.tokens_append fun _ends => behind, Text.tokens_of_oneWord one]
  rfl

private theorem Placed.of_split {place : Text → Prop} {keywords : List Text}
    (each : Placed place keywords text) (known : keyword ∈ keywords) : place first := by
  have placed := each keyword known _ _ (tokens_of_split one split apart behind)
  rwa [Text.spell_tokens] at placed

private theorem RecordsEnd.of_split (records : RecordsEnd text) (known : keyword ∈ recordWords) :
    recordEnds rest = true := by
  have ends := records keyword known _ _ (tokens_of_split one split apart behind)
  rwa [Text.spell_tokens] at ends

end

private theorem closed_append_iff {front stretch : Text}
    (plain : ∀ char ∈ stretch, char ≠ '(' ∧ char ≠ ')' ∧ char ≠ ';' ∧ char ≠ '{') :
    Closed (front ++ stretch) ↔ Closed front := by
  have pairs := @Text.behind_append_passed (fun char => char != '(' && char != ')') (· == ')') stretch
    (fun char member => by simp [plain char member]) front
  have ended := @Text.behind_append_passed (fun char => char != '(' && (char != ';' && char != '{'))
    (fun char => char == ';' || char == '{') stretch
    (fun char member => by simp [plain char member]) front
  exact ⟨fun closed => ⟨pairs.mp closed.parenthesis, ended.mp closed.ended⟩,
    fun closed => ⟨pairs.mpr closed.parenthesis, ended.mpr closed.ended⟩⟩

section
variable {kind name head front back : Text} (shape : IsPlainHead kind name head)
include shape

variable (apart : endsWord front = false)
include apart

private theorem divides_recordDeclaration (records : RecordsEnd front) :
    recordDeclaration.Divides none front (head ++ back) := by
  intro first left right behind early late filled reached found
  obtain ⟨outside, keyword, known, inner, members, tail, same, gapped, plain, flat, white⟩ :=
    recordDeclaration_eq_some found
  obtain ⟨char, others, rfl, type⟩ := shape.exists_reached late reached
  have one := oneWord_foreign keyword (foreign_of_record known)
  obtain ⟨more, rfl, rest⟩ := Text.whole_keyword (early ▸ apart) filled one.2 same
  rw [Option.or_none] at outside
  have next : startsWord more = false := by
    cases more with
    | nil => rfl
    | cons head more =>
        have brace : isWord '{' = false := by decide
        have starts : startsWord (inner ++ '{' :: (members ++ '}' :: tail)) = false :=
          Text.startsWord_append_of_not gapped brace
        rw [rest] at starts
        exact starts
  obtain ⟨before, mark, after, rfl, free, ended⟩ :=
    exists_of_recordEnds (records.of_split one early outside next known)
  -- the first semicolon or brace behind the keyword is the brace of the record
  rw [List.append_assoc, List.cons_append] at rest
  have marked : (mark == '{' || mark == ';') = true := by
    rcases ended with rfl | ⟨rfl, _inside⟩ <;> rfl
  obtain ⟨_same, equal, rest⟩ := Text.first_unique rest plain rfl free marked
  rcases ended with rfl | ⟨_brace, held⟩
  · exact absurd equal (by decide)
  · obtain ⟨passed, brace, later, rfl, none, closer⟩ := Text.exists_first held
    rw [List.append_assoc, List.cons_append] at rest
    obtain ⟨_members, _closes, ends⟩ := Text.first_unique rest flat rfl none closer
    rcases white char (ends ▸ List.mem_append_right _ List.mem_cons_self) with blank | rfl
    · exact absurd ((solid_of_isTypeChar type).symm.trans blank) nofun
    · exact absurd type (by decide)

private theorem divides_staticLine : staticLine.Divides none front (head ++ back) := by
  intro first left right behind early late filled reached found
  obtain ⟨_start, _next, blanks, inner, tail, same, blank, white, gapped, _gap, free⟩ :=
    staticLine_eq_some found
  obtain ⟨char, others, rfl, type⟩ := shape.exists_reached late reached
  have solid := solid_of_isTypeChar type
  have one := oneWord_foreign "static" (by decide)
  have bare : endsWord (([] : Text) ++ []) = false := rfl
  obtain ⟨more, rfl, rest⟩ := Text.ends_in_front same fun member =>
    absurd (solid.symm.trans (blank _ member)) nofun
  by_cases none : more = []
  · -- the keyword would be the first word of the head
    subst none
    have whole : head ++ back = [] ++ ("static".toList ++ (inner ++ ';' :: tail ++ behind)) := by
      rw [late, ← List.nil_append (char :: others), ← rest]
      simp
    have ends : startsWord (inner ++ ';' :: tail ++ behind) = false := by
      have semicolon : isWord ';' = false := by decide
      rw [List.append_assoc]
      exact Text.startsWord_append_of_not gapped semicolon
    exact shape.plain _ (by decide)
      (shape.mem_words (List.nil_append head).symm shape.ne_nil whole (by decide) one bare ends)
  · rw [← List.append_assoc] at early
    obtain ⟨later, rfl, rear⟩ := Text.whole_keyword (early ▸ apart) none one.2 rest.symm
    rcases List.append_eq_append_iff.mp rear with ⟨gone, rfl, split⟩ | ⟨gone, rfl, split⟩
    · -- the semicolon stands in front of the head, so only white space would reach into it
      have other : char ≠ ';' := by
        rintro rfl
        exact absurd type (by decide)
      obtain ⟨space, rfl, ends⟩ := Text.ends_behind_mark split.symm other
      have member : char ∈ tail := by
        rw [ends]
        exact List.mem_append_right _ List.mem_cons_self
      exact absurd (solid.symm.trans (white char member)) nofun
    · -- up to its parenthesis the head has no semicolon
      obtain ⟨declared, inside, opened, letters⟩ := shape.append_eq back
      have level : ∀ char ∈ declared, (char == ';' || char == '(') = false := by
        intro char member
        rcases letters char member with space | letter
        · exact neither_of_class (by decide) (by decide) space
        · exact neither_of_class (by decide) (by decide) letter
      rw [opened, split, List.append_assoc, List.cons_append] at late
      obtain ⟨_same, equal, _rest⟩ := Text.first_unique late level rfl
        (fun char member => free char (List.mem_append_right _ member)) rfl
      exact absurd equal (by decide)

private theorem divides_registerLine (closed : Closed front) :
    registerLine.Divides none front (head ++ back) := by
  intro first left right behind early late filled reached found
  obtain ⟨_start, _next, declared, blanks, arguments, space, tail, same, letters, blank, open_, clear,
    white⟩ := registerLine_eq_some found
  obtain ⟨char, others, rfl, type⟩ := shape.exists_reached late reached
  have solid := solid_of_isTypeChar type
  have one := oneWord_foreign "register" (by decide)
  have bare : endsWord (([] : Text) ++ []) = false := rfl
  have other : ∀ {mark : Char}, isTypeChar mark = false → char ≠ mark := by
    rintro mark outside rfl
    exact absurd (outside.symm.trans type) nofun
  have keyed : ("register(" : Text) = "register".toList ++ ['('] := rfl
  rcases List.append_eq_append_iff.mp same with ⟨gone, rfl, split⟩ | ⟨more, rfl, rest⟩
  · -- up to its parenthesis the head has no colon
    obtain ⟨front, inside, opened, plain⟩ := shape.append_eq back
    rw [opened, split, List.append_assoc, List.cons_append] at late
    have free : ∀ char, InDeclarator char → (char == '(' || char == ':') = false := by
      rintro char (space | letter)
      · exact neither_of_class (by decide) (by decide) space
      · exact neither_of_class (by decide) (by decide) letter
    obtain ⟨_same, equal, _rest⟩ := Text.first_unique late (fun char member => free char (plain char member))
      rfl (fun char member => free char (letters char (List.mem_append_right _ member))) rfl
    exact absurd equal (by decide)
  · obtain ⟨more, rfl, colon⟩ := Text.ends_behind_mark rest.symm (other (by decide))
    obtain ⟨more, rfl, key⟩ := Text.ends_in_front colon.symm fun member =>
      absurd (solid.symm.trans (blank _ member)) nofun
    rw [keyed, List.append_assoc, List.singleton_append] at key
    have round : ∀ rest : Text, startsWord ('(' :: rest) = false := fun rest =>
      (by decide : isWord '(' = false)
    by_cases none : more = []
    · -- the register would be the first word of the head
      subst none
      have whole : head ++ back = [] ++ ("register".toList ++ ('(' :: (arguments ++ ')' ::
          (space ++ ';' :: tail)) ++ behind)) := by
        rw [late, ← List.nil_append (char :: others), ← key]
        simp
      exact shape.plain _ (by decide)
        (shape.mem_words (List.nil_append head).symm shape.ne_nil whole (by decide) one bare (round _))
    · have ends : endsWord (first ++ (declared ++ ':' :: blanks) ++ more) = false := by
        rw [early] at apart
        simpa using apart
      obtain ⟨more, rfl, parenthesis⟩ := Text.whole_keyword ends none one.2 key.symm
      obtain ⟨more, rfl, inside⟩ := Text.ends_behind_mark parenthesis.symm (other (by decide))
      -- the parenthesis closes in front of the head
      have closer : ')' ∈ more := by
        have placed := closed.parenthesis
        have cut : front = first ++ (declared ++ ':' :: (blanks ++ "register".toList)) ++ '(' :: more := by
          rw [early]
          simp
        rw [cut] at placed
        obtain ⟨before, last, after, split, stays, wanted, _rest⟩ :=
          placed.met List.mem_cons_self rfl
        obtain rfl := beq_iff_eq.mp wanted
        have held : ')' ∈ '(' :: more := by
          rw [split]
          exact List.mem_append_right _ List.mem_cons_self
        exact (List.mem_cons.mp held).resolve_left (by decide)
      obtain ⟨early, late, rfl, flat⟩ := List.eq_append_cons_of_mem closer
      rw [List.append_assoc, List.cons_append] at inside
      obtain ⟨_same, _equal, rest⟩ := Text.first_unique inside
        (fun char member => beq_eq_false_iff_ne.mpr (ne_of_mem_of_not_mem member open_))
        (beq_self_eq_true ')')
        (fun char member => beq_eq_false_iff_ne.mpr (ne_of_mem_of_not_mem member flat))
        (beq_self_eq_true ')')
      have member : char ∈ space ++ ';' :: tail := by
        rw [rest]
        exact List.mem_append_right _ List.mem_cons_self
      rcases List.mem_append.mp member with here | later
      · exact absurd (solid.symm.trans (clear char here)) nofun
      · rcases List.mem_cons.mp later with semicolon | there
        · exact other (by decide) semicolon
        · exact absurd (solid.symm.trans (white char there)) nofun

end

private theorem endsWord_append_blank {first blanks : Text} (apart : endsWord first = false)
    (blank : Blank blanks) : endsWord (first ++ blanks) = false :=
  Text.endsWord_append_of_not apart blank.endsWord

private theorem endsWord_declarator (first declared : Text) {blanks : Text} (blank : Blank blanks) :
    endsWord (first ++ (declared ++ ':' :: blanks)) = false := by
  have colon : endsWord (first ++ declared ++ [':']) = false := Text.endsWord_concat _ _
  have whole := endsWord_append_blank colon blank
  simpa using whole

section
variable {kind name head front back : Text} (shape : IsPlainHead kind name head)
include shape

omit shape in
private theorem spared_of_stretch {pattern : Pattern} (sound : pattern.Sound)
    (none : ∀ first left stretch rest, head = first ++ left → left ≠ [] → left ++ back = stretch ++ rest →
      pattern (first.getLast?.or front.getLast?) (stretch ++ rest) ≠ some stretch.length) :
    pattern.Spared front.getLast? head back := by
  intro first left split filled
  refine Option.eq_none_iff_forall_ne_some.mpr fun length found => ?_
  obtain ⟨stretch, rest, _some, same, rfl⟩ := sound.split found
  rw [same] at found
  exact none first left stretch rest split filled same found

private theorem spared_recordDeclaration : recordDeclaration.Spared front.getLast? head back := by
  refine spared_of_stretch (Pattern.sound_notAfter _ consumes_recordDeclaration) ?_
  intro first left stretch rest split filled same found
  obtain ⟨outside, keyword, known, inner, members, tail, rfl, gapped, _plain, _flat, _white⟩ :=
    recordDeclaration_eq_some found
  have foreign : keyword ∈ foreignWords := foreign_of_record known
  have free : ∀ keyword ∈ recordWords, '{' ∉ keyword := by decide
  have brace : isWord '{' = false := by decide
  rw [List.append_assoc] at same
  refine shape.plain keyword foreign (shape.mem_words split filled
    (same.trans (List.nil_append _).symm) (free keyword known) (oneWord_foreign keyword foreign) ?_ ?_)
  · rw [List.append_nil]
    exact endsWord_of_outside (fun _char word => word) outside
  · rw [List.append_assoc]
    exact Text.startsWord_append_of_not gapped brace

private theorem spared_staticLine : staticLine.Spared front.getLast? head back := by
  refine spared_of_stretch (Pattern.sound_notAfter _ consumes_staticLine) ?_
  intro first left stretch rest split filled same found
  obtain ⟨start, _next, blanks, inner, tail, rfl, blank, _white, gapped, _gap, _free⟩ :=
    staticLine_eq_some found
  have semicolon : isWord ';' = false := by decide
  have dark : isBlank '{' = false := by decide
  rw [List.append_assoc, List.append_assoc] at same
  refine shape.plain "static" (by decide) (shape.mem_words split filled same ?_
    (oneWord_foreign "static" (by decide)) ?_ ?_)
  · rw [List.mem_append, not_or]
    exact ⟨fun member => absurd (dark.symm.trans (blank _ member)) nofun, by decide⟩
  · exact endsWord_append_blank (endsWord_of_outside lineStart_wider start) blank
  · rw [List.append_assoc]
    exact Text.startsWord_append_of_not gapped semicolon

private theorem spared_registerLine : registerLine.Spared front.getLast? head back := by
  refine spared_of_stretch (Pattern.sound_notAfter _ consumes_registerLine) ?_
  intro first left stretch rest split filled same found
  obtain ⟨_start, _next, declared, blanks, arguments, space, tail, rfl, letters, blank, _open, _clear,
    _white⟩ := registerLine_eq_some found
  have dark : isBlank '{' = false := by decide
  have type : isTypeChar '{' = false := by decide
  have whole : left ++ back = (declared ++ ':' :: blanks) ++ ("register".toList ++
      ('(' :: (arguments ++ ')' :: (space ++ ';' :: tail)) ++ rest)) := by
    rw [same]
    simp
  refine shape.plain "register" (by decide) (shape.mem_words split filled whole ?_
    (oneWord_foreign "register" (by decide)) (endsWord_declarator first declared blank)
    (by decide : isWord '(' = false))
  simp only [List.mem_append, List.mem_cons, not_or]
  refine ⟨⟨fun member => ?_, by decide, fun member => ?_⟩, by decide⟩
  · rcases letters _ member with space | letter
    · exact absurd (dark.symm.trans space) nofun
    · exact absurd (type.symm.trans letter) nofun
  · exact absurd (dark.symm.trans (blank _ member)) nofun

end

section
variable {text first stretch rest : Text} (split : text = first ++ (stretch ++ rest))
include split

theorem stands_of_recordDeclaration {place : Text → Prop} (each : Placed place recordWords text)
    (found : recordDeclaration first.getLast? (stretch ++ rest) = some stretch.length) :
    place first ∧ endsWord first = false := by
  obtain ⟨outside, keyword, known, inner, members, tail, rfl, gapped, _plain, _flat, _white⟩ :=
    recordDeclaration_eq_some found
  have brace : isWord '{' = false := by decide
  rw [List.append_assoc] at split
  refine ⟨each.of_split (oneWord_foreign _ (foreign_of_record known)) split outside ?_ known, outside⟩
  rw [List.append_assoc]
  exact Text.startsWord_append_of_not gapped brace

theorem closed_of_staticLine (closed : Placed Closed ["static"] text)
    (found : staticLine first.getLast? (stretch ++ rest) = some stretch.length) :
    Closed first ∧ endsWord first = false := by
  obtain ⟨start, _next, blanks, inner, tail, rfl, blank, _white, gapped, _gap, _free⟩ :=
    staticLine_eq_some found
  rw [← Option.or_none (o := first.getLast?)] at start
  have apart := endsWord_of_outside lineStart_wider start
  have semicolon : isWord ';' = false := by decide
  have whole : text = (first ++ blanks) ++ ("static".toList ++ (inner ++ (';' :: tail ++ rest))) := by
    rw [split]
    simp
  have placed := closed.of_split (oneWord_foreign "static" (by decide)) whole
    (endsWord_append_blank apart blank) (Text.startsWord_append_of_not gapped semicolon)
    (List.mem_singleton.mpr rfl)
  refine ⟨(closed_append_iff fun char member => ?_).mp placed, apart⟩
  have white := blank char member
  refine ⟨?_, ?_, ?_, ?_⟩ <;> rintro rfl <;> exact absurd white (by decide)

theorem closed_of_registerLine (closed : Placed Closed ["register"] text)
    (found : registerLine first.getLast? (stretch ++ rest) = some stretch.length) :
    Closed first ∧ endsWord first = false := by
  obtain ⟨start, _next, declared, blanks, arguments, space, tail, rfl, letters, blank, _open, _clear,
    _white⟩ := registerLine_eq_some found
  rw [← Option.or_none (o := first.getLast?)] at start
  have apart := endsWord_of_outside lineStart_wider start
  have whole : text = (first ++ (declared ++ ':' :: blanks)) ++ ("register".toList ++
      ('(' :: (arguments ++ ')' :: (space ++ ';' :: tail)) ++ rest)) := by
    rw [split]
    simp
  have placed := closed.of_split (oneWord_foreign "register" (by decide)) whole
    (endsWord_declarator first declared blank) (by decide : isWord '(' = false)
    (List.mem_singleton.mpr rfl)
  refine ⟨(closed_append_iff fun char member => ?_).mp placed, apart⟩
  have class_ : InDeclarator char ∨ char = ':' := by
    rcases List.mem_append.mp member with here | later
    · exact .inl (letters char here)
    · exact (List.mem_cons.mp later).elim .inr fun white => .inl (.inl (blank char white))
  have marks : ∀ mark ∈ ("();\x7b" : Text), ¬ InDeclarator mark ∧ mark ≠ ':' := by
    decide
  have other : ∀ mark ∈ ("();\x7b" : Text), char ≠ mark := by
    rintro mark known rfl
    exact class_.elim (marks char known).1 (marks char known).2
  exact ⟨other '(' (by decide), other ')' (by decide), other ';' (by decide), other '{' (by decide)⟩

end

theorem lined_of_lineStart {first : Text} (start : first.getLast?.any (· != '\n') = false) :
    Lined first := by
  cases last : first.getLast? with
  | none =>
      rw [List.getLast?_eq_none_iff.mp last]
      exact Text.behind_nil
  | some char =>
      rw [last] at start
      obtain rfl : char = '\n' := bne_eq_false_iff_eq.mp start
      obtain ⟨front, rfl⟩ := List.getLast?_eq_some_iff.mp last
      exact (Text.behind_of_last rfl (List.forall_mem_nil _)).mpr rfl

private theorem Placed.remove {pattern : Pattern} (apart : pattern.Apart)
    (keeps : pattern.KeepsStart fun _ => []) {keywords : List Text} {text : Text}
    (begins : ∀ first stretch rest, text = first ++ (stretch ++ rest) →
      pattern first.getLast? (stretch ++ rest) = some stretch.length → Closed first)
    (closed : Placed Closed keywords text) : Placed Closed keywords (pattern.remove text) := by
  intro word known first later stands
  refine ⟨?_, ?_⟩
  · exact Pattern.behind_word_remove apart keeps
      (fun first stretch rest split found => (begins first stretch rest split found).parenthesis)
      (fun first later placed => (closed word known first later placed).parenthesis) stands
  · exact Pattern.behind_word_remove apart keeps
      (fun first stretch rest split found => (begins first stretch rest split found).ended)
      (fun first later placed => (closed word known first later placed).ended) stands

/-! ### What stays of a preamble -/

/-- The head stands in the text where nothing is open. -/
structure HeadAt (head text front : Text) : Prop where
  split : ∃ back, text = front ++ (head ++ back)
  closed : Closed front
  apart : endsWord front = false

private theorem HeadAt.exists_remove {pattern : Pattern} (sound : pattern.Sound) {head text front : Text}
    (place : HeadAt head text front)
    (divides : ∀ back, pattern.Divides none front (head ++ back))
    (spared : ∀ back, pattern.Spared front.getLast? head back)
    (begins : ∀ first stretch rest, text = first ++ (stretch ++ rest) →
      pattern first.getLast? (stretch ++ rest) = some stretch.length →
        Closed first ∧ endsWord first = false) :
    ∃ left, HeadAt head (pattern.remove text) left ∧
      ((∀ first stretch rest, text = first ++ (stretch ++ rest) →
        pattern first.getLast? (stretch ++ rest) = some stretch.length → Lined first) →
          Lined front → Lined left) := by
  obtain ⟨⟨back, rfl⟩, closed, apart⟩ := place
  obtain ⟨left, later, split, kept⟩ := Pattern.remove_around sound (divides back) (spared back)
  have last : ∀ text : Text, Behind (fun _ => false) (fun char => !isWord char) text ↔
      endsWord text = false := by
    intro text
    unfold Behind endsWord
    rw [List.dropWhile_eq_self_iff.mpr (by simp), List.head?_reverse]
    cases text.getLast? <;> simp
  refine ⟨left, ⟨⟨later, split⟩, ⟨?_, ?_⟩, ?_⟩, kept _ _⟩
  · exact kept _ _ (fun first stretch rest same found => (begins first stretch rest same found).1.parenthesis)
      closed.parenthesis
  · exact kept _ _ (fun first stretch rest same found => (begins first stretch rest same found).1.ended)
      closed.ended
  · refine (last left).mp (kept _ _ (fun first stretch rest same found => ?_) ((last front).mpr apart))
    exact (last first).mpr (begins first stretch rest same found).2

private theorem HeadAt.exists_trim {kind name head text front : Text} (shape : IsHead kind name head)
    (place : HeadAt head text front) :
    ∃ left, HeadAt head text.trim left ∧ (Lined front → Lined left) := by
  obtain ⟨⟨back, rfl⟩, closed, apart⟩ := place
  obtain ⟨before, after, white, blank, same⟩ := Text.exists_trim (front ++ (head ++ back))
  obtain ⟨char, more, starts, type⟩ := shape.starts
  obtain ⟨inner, ends, _free⟩ := shape.ends
  rw [List.append_assoc, starts, List.cons_append] at same
  obtain ⟨left, rfl, rest⟩ := Text.ends_in_front same fun member =>
    absurd ((solid_of_isTypeChar type).symm.trans (white char member)) nofun
  rw [← List.cons_append, ← starts] at rest
  have outside : '{' ∉ after := fun member => absurd (blank _ member) (by decide)
  have cut : (Text.trim (before ++ left ++ (head ++ back))) ++ after = (left ++ inner) ++ '{' :: back := by
    rw [rest, ends]
    simp
  obtain ⟨later, trimmed⟩ : ∃ later, Text.trim (before ++ left ++ (head ++ back)) =
      (left ++ inner) ++ '{' :: later := by
    rcases List.append_eq_append_iff.mp cut with ⟨late, _front, split⟩ | ⟨late, trimmed, split⟩
    · rw [split] at outside
      exact absurd (List.mem_append_right _ List.mem_cons_self) outside
    · cases late with
      | nil =>
          rw [List.nil_append] at split
          rw [← split] at outside
          exact absurd List.mem_cons_self outside
      | cons brace late =>
          obtain ⟨rfl, _back⟩ := List.cons.inj split
          exact ⟨late, trimmed⟩
  have last : endsWord left = false := by
    by_cases none : left = []
    · rw [none]
      rfl
    · rwa [Text.endsWord_append _ none] at apart
  refine ⟨left, ⟨⟨later, ?_⟩, ⟨closed.parenthesis.of_append, closed.ended.of_append⟩, last⟩,
    fun lined => lined.of_append⟩
  rw [trimmed, ends]
  simp

private theorem Placed.of_subset {place : Text → Prop} {keywords others : List Text} {text : Text}
    (each : Placed place keywords text) (within : others ⊆ keywords) : Placed place others text :=
  fun word member => each word (within member)

/-- The functions of a preamble stay: only declarations of other kinds are left out. -/
theorem HeadAt.exists_kept {kind name head front preamble : Text}
    (shape : IsPlainHead kind name head) (place : HeadAt head preamble front) (records : RecordsEnd front)
    (closed : Placed Closed droppedWords preamble) :
    ∃ left, HeadAt head (helperFunctions preamble) left ∧
      (Placed Lined recordWords preamble → Lined front → Lined left) := by
  have recordClosed : Placed Closed recordWords preamble :=
    closed.of_subset (List.subset_append_left _ _)
  have othersClosed : Placed Closed ["static", "register"] (recordDeclaration.remove preamble) :=
    Placed.remove apart_recordDeclaration keepsStart_recordDeclaration
      (fun _first _stretch _rest split found => (stands_of_recordDeclaration split recordClosed found).1)
      (closed.of_subset (List.subset_append_right _ _))
  have staticClosed := othersClosed.of_subset (List.subset_append_left ["static".toList] _)
  have registerClosed : Placed Closed ["register"]
      (staticLine.remove (recordDeclaration.remove preamble)) :=
    Placed.remove apart_staticLine keepsStart_staticLine
      (fun _first _stretch _rest split found => (closed_of_staticLine split staticClosed found).1)
      (othersClosed.of_subset (List.subset_cons_self _ _))
  obtain ⟨_front, place, first⟩ := place.exists_remove (Pattern.sound_notAfter _ consumes_recordDeclaration)
    (fun _back => divides_recordDeclaration shape place.apart records)
    (fun _back => spared_recordDeclaration shape)
    (fun _first _stretch _rest split => stands_of_recordDeclaration split recordClosed)
  obtain ⟨_front, place, second⟩ := place.exists_remove (Pattern.sound_notAfter _ consumes_staticLine)
    (fun _back => divides_staticLine shape place.apart) (fun _back => spared_staticLine shape)
    (fun _first _stretch _rest split => closed_of_staticLine split staticClosed)
  obtain ⟨_front, place, third⟩ := place.exists_remove (Pattern.sound_notAfter _ consumes_registerLine)
    (fun _back => divides_registerLine shape place.apart place.closed)
    (fun _back => spared_registerLine shape)
    (fun _first _stretch _rest split => closed_of_registerLine split registerClosed)
  obtain ⟨left, whole, last⟩ := place.exists_trim shape.toIsHead
  refine ⟨left, whole, fun lined line => last (third ?_ (second ?_ (first ?_ line)))⟩
  · intro first stretch rest _split found
    exact lined_of_lineStart (registerLine_eq_some found).1
  · intro first stretch rest _split found
    exact lined_of_lineStart (staticLine_eq_some found).1
  · intro first stretch rest split found
    exact (stands_of_recordDeclaration split lined found).1

end Export
end ShaderBridge
