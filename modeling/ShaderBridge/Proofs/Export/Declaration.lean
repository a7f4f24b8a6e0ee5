import ShaderBridge.Export.Unreal
import ShaderBridge.Proofs.Text.Lexeme
import ShaderBridge.Proofs.Text.Parts
set_option autoImplicit false

/-! Declarations that a node leaves out: records, globals of the module, and bound resources. For each,
what a match of its pattern looks like (`recordDeclaration_eq_some`, `staticLine_eq_some`,
`registerLine_eq_some`), and that leaving it out joins no words. -/

namespace ShaderBridge

namespace Scan

open Text (Blank startsWord)

/-- The blank end of a line is white space, and no word follows on it. -/
theorem blankLineEnd_eq_some {text rest : Text} (found : blankLineEnd text = some rest) :
    ∃ tail, Blank tail ∧ text = tail ++ rest ∧ startsWord rest = false := by
  have split := List.takeWhile_append_dropWhile (p := isBlank) (l := text)
  have white : Blank (text.takeWhile isBlank) := fun char member => List.mem_takeWhile_imp member
  unfold blankLineEnd at found
  split at found
  · next none =>
      cases found
      rw [none, List.append_nil] at split
      exact ⟨text, split ▸ white, (List.append_nil text).symm, rfl⟩
  · next char behind after =>
      obtain ⟨feed, same⟩ := Option.ite_none_right_eq_some.mp found
      -- the last line feed of the white space is the first on the way back
      obtain ⟨late, early, cut, flat⟩ := List.eq_append_cons_of_mem
        (List.mem_reverse.mpr (List.contains_iff_mem.mp feed))
      have turned : text.takeWhile isBlank = early.reverse ++ '\n' :: late.reverse := by
        rw [← List.reverse_reverse (text.takeWhile isBlank), cut]
        simp
      have level : ∀ char ∈ late, (char != '\n') = true := by
        rintro char member
        rw [bne_iff_ne]
        rintro rfl
        exact flat member
      have line : (text.takeWhile isBlank).reverse.takeWhile (· != '\n') = late := by
        rw [cut, List.takeWhile_append_of_pos level]
        simp
      rw [line] at same
      cases same
      refine ⟨early.reverse, fun char member => white char ?_, ?_, rfl⟩
      · rw [turned]
        exact List.mem_append_left _ member
      · rw [after, turned] at split
        rw [← split]
        simp

theorem sound_blankLineEnd : Sound blankLineEnd := by
  intro text rest found
  obtain ⟨tail, _blank, rfl, _apart⟩ := blankLineEnd_eq_some found
  exact List.suffix_append tail rest

end Scan

namespace Text

/-- Where the first character of a class stands in a text. -/
theorem first_unique {inClass : Char → Bool} {early late other more : Text} {char last : Char}
    (same : early ++ char :: late = other ++ last :: more)
    (before : ∀ char ∈ early, inClass char = false) (here : inClass char = true)
    (among : ∀ char ∈ other, inClass char = false) (there : inClass last = true) :
    early = other ∧ char = last ∧ late = more := by
  rcases List.append_eq_append_iff.mp same with ⟨between, rfl, split⟩ | ⟨between, rfl, split⟩
  · cases between with
    | nil => exact ⟨(List.append_nil _).symm, (List.cons.inj split).1, (List.cons.inj split).2⟩
    | cons head between =>
        obtain ⟨rfl, _rest⟩ := List.cons.inj split
        have outside := among char (List.mem_append_right _ List.mem_cons_self)
        exact absurd (outside.symm.trans here) nofun
  · cases between with
    | nil =>
        exact ⟨List.append_nil _, (List.cons.inj split).1.symm, (List.cons.inj split).2.symm⟩
    | cons head between =>
        obtain ⟨rfl, _rest⟩ := List.cons.inj split
        have outside := before last (List.mem_append_right _ List.mem_cons_self)
        exact absurd (outside.symm.trans there) nofun

theorem exists_first {inClass : Char → Bool} {text : Text} (held : ∃ char ∈ text, inClass char = true) :
    ∃ early char late, text = early ++ char :: late ∧ (∀ char ∈ early, inClass char = false) ∧
      inClass char = true := by
  induction text with
  | nil => exact absurd held (by simp)
  | cons head text ih =>
      by_cases here : inClass head = true
      · exact ⟨[], head, text, rfl, nofun, here⟩
      · obtain ⟨char, member, known⟩ := held
        have later : char ∈ text := (List.mem_cons.mp member).resolve_left fun same => here (same ▸ known)
        obtain ⟨early, char, late, rfl, before, found⟩ := ih ⟨char, later, known⟩
        exact ⟨head :: early, char, late, rfl,
          List.forall_mem_cons.mpr ⟨Bool.eq_false_iff.mpr here, before⟩, found⟩

/-- A keyword that begins in a text that ends in no word stands in it as a whole. -/
theorem whole_keyword {first left right keyword rest : Text}
    (apart : endsWord (first ++ left) = false) (filled : left ≠ [])
    (letters : ∀ char ∈ keyword, isWord char = true) (same : left ++ right = keyword ++ rest) :
    ∃ more, left = keyword ++ more ∧ rest = more ++ right := by
  rcases List.append_eq_append_iff.mp same with ⟨more, whole, split⟩ | ⟨more, rfl, rest⟩
  · by_cases cut : more = []
    · rw [cut, List.append_nil] at whole
      rw [cut, List.nil_append] at split
      exact ⟨[], by rw [whole, List.append_nil], split.symm⟩
    · have word : ∀ char ∈ left, isWord char = true := fun char member =>
        letters char (whole ▸ List.mem_append_left _ member)
      rw [Text.endsWord_append _ filled] at apart
      exact absurd (apart.symm.trans (Text.IsOneWord.endsWord ⟨filled, word⟩)) nofun
  · exact ⟨more, rfl, rest⟩

theorem ends_in_front {left others front rest : Text} {char : Char}
    (same : left ++ char :: others = front ++ rest) (absent : char ∉ front) :
    ∃ more, left = front ++ more ∧ rest = more ++ char :: others := by
  rcases List.append_eq_append_iff.mp same with ⟨more, rfl, split⟩ | ⟨more, rfl, rest⟩
  · cases more with
    | nil => exact ⟨[], by simp, split.symm⟩
    | cons head more =>
        obtain ⟨rfl, _rest⟩ := List.cons.inj split
        exact absurd (List.mem_append_right _ List.mem_cons_self) absent
  · exact ⟨more, rfl, rest⟩

theorem ends_behind_mark {left others rest : Text} {char mark : Char}
    (same : left ++ char :: others = mark :: rest) (other : char ≠ mark) :
    ∃ more, left = mark :: more ∧ rest = more ++ char :: others :=
  ends_in_front (show _ = [mark] ++ rest from same) fun member => other (List.mem_singleton.mp member)

end Text

namespace Export

open Text (Blank IsOneWord endsWord startsWord)

def recordWords : List Text := ["struct", "cbuffer"]

theorem oneWord_record : ∀ word ∈ recordWords, IsOneWord word := by
  have each : ∀ word ∈ recordWords, word ≠ [] ∧ word.all isWord = true := by decide
  exact fun word member => ⟨(each word member).1, List.all_eq_true.mp (each word member).2⟩

theorem neither_of_class {inClass : Char → Bool} {first second char : Char}
    (one : inClass first = false) (two : inClass second = false) (member : inClass char = true) :
    (char == first || char == second) = false := by
  rw [Bool.or_eq_false_iff, beq_eq_false_iff_ne, beq_eq_false_iff_ne]
  refine ⟨?_, ?_⟩
  · rintro rfl
    exact absurd (member.symm.trans one) nofun
  · rintro rfl
    exact absurd (member.symm.trans two) nofun

theorem consumes_recordDeclaration : Scan.Consumes
    (Scan.orElse (Scan.literal "struct") (Scan.literal "cbuffer") >=> Scan.someBlanks >=> Scan.word
      >=> Scan.zeroOrMore (fun char => char != '{' && char != ';') >=> flatBraces >=> Scan.blanks
      >=> Scan.optional (Scan.literal ";")) := by
  have braces : Scan.Sound flatBraces := (Scan.sound_literal _).andThen
    ((Scan.sound_zeroOrMore _).andThen (Scan.sound_literal _))
  refine (Scan.consumes_orElse (Scan.consumes_literal (by decide))
    (Scan.consumes_literal (by decide))).andThen ?_
  exact (Scan.consumes_oneOrMore _).sound.andThen ((Scan.consumes_oneOrMore _).sound.andThen
    ((Scan.sound_zeroOrMore _).andThen (braces.andThen (Scan.sound_blanks.andThen
      (Scan.sound_optional (Scan.sound_literal _))))))

/-- A record: its keyword, braces with no brace between them, and what ends it. -/
theorem recordDeclaration_eq_some {before : Option Char} {stretch rest : Text}
    (found : recordDeclaration before (stretch ++ rest) = some stretch.length) :
    before.any isWord = false ∧ ∃ keyword ∈ recordWords, ∃ inner members tail,
      stretch = keyword ++ (inner ++ '{' :: (members ++ '}' :: tail)) ∧ startsWord inner = false ∧
        (∀ char ∈ inner, (char == '{' || char == ';') = false) ∧
          (∀ char ∈ members, (char == '{' || char == '}') = false) ∧
            ∀ char ∈ tail, isBlank char = true ∨ char = ';' := by
  obtain ⟨apart, read⟩ :=
    (Pattern.notAfter_append_eq_some_iff consumes_recordDeclaration.sound).mp found
  refine ⟨apart, ?_⟩
  obtain ⟨behind, keyed, read⟩ := Scan.andThen_eq_some_iff.mp read
  obtain ⟨_, gaps, read⟩ := Scan.andThen_eq_some_iff.mp read
  obtain ⟨_, named, read⟩ := Scan.andThen_eq_some_iff.mp read
  obtain ⟨_, more, read⟩ := Scan.andThen_eq_some_iff.mp read
  obtain ⟨_, braced, read⟩ := Scan.andThen_eq_some_iff.mp read
  obtain ⟨_, opened, braced⟩ := Scan.andThen_eq_some_iff.mp braced
  obtain ⟨_, flat, closed⟩ := Scan.andThen_eq_some_iff.mp braced
  obtain ⟨ending, white, ended⟩ := Scan.andThen_eq_some_iff.mp read
  obtain ⟨gap, filled, blank, rfl, _dark⟩ := Scan.oneOrMore_eq_some_iff.mp gaps
  obtain ⟨name, _filled, letters, rfl, _end⟩ := Scan.oneOrMore_eq_some_iff.mp named
  obtain ⟨front, plain, rfl, _next⟩ := Scan.zeroOrMore_eq_some_iff.mp more
  obtain rfl := Scan.literal_eq_some_iff.mp opened
  obtain ⟨members, inside, rfl, _brace⟩ := Scan.zeroOrMore_eq_some_iff.mp flat
  obtain rfl := Scan.literal_eq_some_iff.mp closed
  obtain ⟨space, clear, rfl, _solid⟩ := Scan.zeroOrMore_eq_some_iff.mp white
  obtain ⟨keyword, known, whole⟩ : ∃ keyword ∈ recordWords, stretch ++ rest = keyword ++
      (gap ++ (name ++ (front ++ ("\x7b" ++ (members ++ ("\x7d" ++ (space ++ ending))))))) := by
    rcases Scan.orElse_eq_some keyed with record | block
    · exact ⟨"struct", by decide, Scan.literal_eq_some_iff.mp record⟩
    · exact ⟨"cbuffer", by decide, Scan.literal_eq_some_iff.mp block⟩
  obtain ⟨mark, marks, same⟩ : ∃ mark : Text, (∀ char ∈ mark, char = ';') ∧ ending = mark ++ rest := by
    have ended : (Scan.literal ";" ending).getD ending = rest := Option.some.inj ended
    cases last : Scan.literal ";" ending with
    | none =>
        rw [last] at ended
        exact ⟨[], nofun, ended⟩
    | some behind =>
        rw [last] at ended
        obtain rfl : behind = rest := ended
        exact ⟨";", by decide, Scan.literal_eq_some_iff.mp last⟩
  refine ⟨keyword, known, gap ++ (name ++ front), members, space ++ mark, ?_, ?_, ?_, ?_, ?_⟩
  · rw [same] at whole
    refine List.append_cancel_right (whole.trans ?_)
    simp
  · rw [Text.startsWord_append filled]
    exact Blank.startsWord blank
  · intro char member
    rcases List.mem_append.mp member with white | later
    · exact neither_of_class (by decide) (by decide) (blank char white)
    · rcases List.mem_append.mp later with letter | other
      · exact neither_of_class (by decide) (by decide) (letters char letter)
      · simpa using plain char other
  · intro char member
    simpa using inside char member
  · intro char member
    exact (List.mem_append.mp member).imp (clear char) (marks char)

theorem consumes_staticLine : Scan.Consumes
    (Scan.blanks >=> Scan.literal "static" >=> Scan.someBlanks
      >=> Scan.zeroOrMore (fun char => char != ';' && char != '(') >=> Scan.literal ";"
      >=> Scan.blankLineEnd) :=
  Scan.sound_blanks.andThen_consumes ((Scan.consumes_literal (by decide)).andThen
    ((Scan.consumes_oneOrMore _).sound.andThen ((Scan.sound_zeroOrMore _).andThen
      ((Scan.sound_literal _).andThen Scan.sound_blankLineEnd))))

/-- A global: its keyword, no parenthesis that opens up to its semicolon, and the end of the line. -/
theorem staticLine_eq_some {before : Option Char} {stretch rest : Text}
    (found : staticLine before (stretch ++ rest) = some stretch.length) :
    before.any (· != '\n') = false ∧ startsWord rest = false ∧ ∃ blanks inner tail,
      stretch = blanks ++ ("static" ++ (inner ++ ';' :: tail)) ∧ Blank blanks ∧ Blank tail ∧
        startsWord inner = false ∧ inner ≠ [] ∧
          ∀ char ∈ inner, (char == ';' || char == '(') = false := by
  obtain ⟨start, read⟩ := (Pattern.notAfter_append_eq_some_iff consumes_staticLine.sound).mp found
  refine ⟨start, ?_⟩
  obtain ⟨_, white, read⟩ := Scan.andThen_eq_some_iff.mp read
  obtain ⟨_, keyed, read⟩ := Scan.andThen_eq_some_iff.mp read
  obtain ⟨_, gaps, read⟩ := Scan.andThen_eq_some_iff.mp read
  obtain ⟨_, more, read⟩ := Scan.andThen_eq_some_iff.mp read
  obtain ⟨_, ended, last⟩ := Scan.andThen_eq_some_iff.mp read
  obtain ⟨blanks, blank, whole, _dark⟩ := Scan.zeroOrMore_eq_some_iff.mp white
  obtain rfl := Scan.literal_eq_some_iff.mp keyed
  obtain ⟨gap, filled, gapped, rfl, _end⟩ := Scan.oneOrMore_eq_some_iff.mp gaps
  obtain ⟨front, plain, rfl, _next⟩ := Scan.zeroOrMore_eq_some_iff.mp more
  obtain rfl := Scan.literal_eq_some_iff.mp ended
  obtain ⟨tail, clear, rfl, apart⟩ := Scan.blankLineEnd_eq_some last
  refine ⟨apart, blanks, gap ++ front, tail, ?_, blank, clear, ?_, ?_, ?_⟩
  · refine List.append_cancel_right (whole.trans ?_)
    simp
  · rw [Text.startsWord_append filled]
    exact Blank.startsWord gapped
  · exact List.append_ne_nil_of_left_ne_nil filled _
  · intro char member
    rcases List.mem_append.mp member with white | other
    · exact neither_of_class (by decide) (by decide) (gapped char white)
    · simpa using plain char other

private def boundResource : Scan :=
  Scan.oneOrMore isTypeChar >=> Scan.someBlanks >=> Scan.word >=> Scan.blanks
    >=> Scan.literal ":" >=> Scan.blanks >=> Scan.literal "register("
    >=> Scan.zeroOrMore (· != ')') >=> Scan.literal ")" >=> Scan.blanks >=> Scan.literal ";"
    >=> Scan.blankLineEnd

private theorem registerLine_eq : registerLine = Scan.atLineStart (Scan.blanks
    >=> Scan.orElse (Scan.literal "uniform" >=> Scan.someBlanks >=> boundResource) boundResource) :=
  rfl

theorem consumes_boundResource : boundResource.Consumes :=
  (Scan.consumes_oneOrMore _).andThen ((Scan.consumes_oneOrMore _).sound.andThen
    ((Scan.consumes_oneOrMore _).sound.andThen (Scan.sound_blanks.andThen
      ((Scan.sound_literal _).andThen (Scan.sound_blanks.andThen ((Scan.sound_literal _).andThen
        ((Scan.sound_zeroOrMore _).andThen ((Scan.sound_literal _).andThen
          (Scan.sound_blanks.andThen ((Scan.sound_literal _).andThen
            Scan.sound_blankLineEnd))))))))))

theorem consumes_registerLine : Scan.Consumes (Scan.blanks
    >=> Scan.orElse (Scan.literal "uniform" >=> Scan.someBlanks >=> boundResource) boundResource) :=
  Scan.sound_blanks.andThen_consumes (Scan.consumes_orElse
    ((Scan.consumes_literal (by decide)).andThen
      ((Scan.consumes_oneOrMore _).sound.andThen consumes_boundResource.sound))
    consumes_boundResource)

def InDeclarator (char : Char) : Prop := isBlank char = true ∨ isTypeChar char = true

instance (char : Char) : Decidable (InDeclarator char) := inferInstanceAs (Decidable (_ ∨ _))

private theorem boundResource_eq_some {text rest : Text} (found : boundResource text = some rest) :
    startsWord rest = false ∧ ∃ declared blanks arguments space tail,
      text = declared ++ ':' :: (blanks ++ ("register(" ++ (arguments ++ ')' ::
        (space ++ ';' :: (tail ++ rest))))) ∧ (∀ char ∈ declared, InDeclarator char) ∧
          Blank blanks ∧ ')' ∉ arguments ∧ Blank space ∧ Blank tail := by
  obtain ⟨_, typed, read⟩ := Scan.andThen_eq_some_iff.mp found
  obtain ⟨_, gaps, read⟩ := Scan.andThen_eq_some_iff.mp read
  obtain ⟨_, named, read⟩ := Scan.andThen_eq_some_iff.mp read
  obtain ⟨_, white, read⟩ := Scan.andThen_eq_some_iff.mp read
  obtain ⟨_, colon, read⟩ := Scan.andThen_eq_some_iff.mp read
  obtain ⟨_, space, read⟩ := Scan.andThen_eq_some_iff.mp read
  obtain ⟨_, keyed, read⟩ := Scan.andThen_eq_some_iff.mp read
  obtain ⟨_, inside, read⟩ := Scan.andThen_eq_some_iff.mp read
  obtain ⟨_, closed, read⟩ := Scan.andThen_eq_some_iff.mp read
  obtain ⟨_, behind, read⟩ := Scan.andThen_eq_some_iff.mp read
  obtain ⟨_, ended, last⟩ := Scan.andThen_eq_some_iff.mp read
  obtain ⟨type, _filled, letters, rfl, _end⟩ := Scan.oneOrMore_eq_some_iff.mp typed
  obtain ⟨gap, _some, gapped, rfl, _dark⟩ := Scan.oneOrMore_eq_some_iff.mp gaps
  obtain ⟨name, _more, word, rfl, _apart⟩ := Scan.oneOrMore_eq_some_iff.mp named
  obtain ⟨pad, padded, rfl, _solid⟩ := Scan.zeroOrMore_eq_some_iff.mp white
  obtain rfl := Scan.literal_eq_some_iff.mp colon
  obtain ⟨blanks, blank, rfl, _next⟩ := Scan.zeroOrMore_eq_some_iff.mp space
  obtain rfl := Scan.literal_eq_some_iff.mp keyed
  obtain ⟨arguments, free, rfl, _closer⟩ := Scan.zeroOrMore_eq_some_iff.mp inside
  obtain rfl := Scan.literal_eq_some_iff.mp closed
  obtain ⟨room, clear, rfl, _semicolon⟩ := Scan.zeroOrMore_eq_some_iff.mp behind
  obtain rfl := Scan.literal_eq_some_iff.mp ended
  obtain ⟨tail, trailing, rfl, apart⟩ := Scan.blankLineEnd_eq_some last
  refine ⟨apart, type ++ (gap ++ (name ++ pad)), blanks, arguments, room, tail, by simp, ?_, blank,
    ?_, clear, trailing⟩
  · simp only [List.forall_mem_append]
    refine ⟨fun char member => .inr (letters char member), fun char member => .inl (gapped char member),
      fun char member => .inr ?_, fun char member => .inl (padded char member)⟩
    unfold isTypeChar
    rw [word char member, Bool.true_or, Bool.true_or]
  · exact fun member => absurd (free _ member) (by decide)

/-- A resource: its declarator, the register that it is bound to, and the end of the line. -/
theorem registerLine_eq_some {before : Option Char} {stretch rest : Text}
    (found : registerLine before (stretch ++ rest) = some stretch.length) :
    before.any (· != '\n') = false ∧ startsWord rest = false ∧
      ∃ declared blanks arguments space tail, stretch = declared ++ ':' :: (blanks ++
        ("register(" ++ (arguments ++ ')' :: (space ++ ';' :: tail)))) ∧
          (∀ char ∈ declared, InDeclarator char) ∧ Blank blanks ∧ ')' ∉ arguments ∧ Blank space ∧
            Blank tail := by
  rw [registerLine_eq] at found
  obtain ⟨start, read⟩ := (Pattern.notAfter_append_eq_some_iff consumes_registerLine.sound).mp found
  refine ⟨start, ?_⟩
  obtain ⟨behind, white, read⟩ := Scan.andThen_eq_some_iff.mp read
  obtain ⟨front, blank, whole, _dark⟩ := Scan.zeroOrMore_eq_some_iff.mp white
  obtain ⟨qualifier, qualified, bound⟩ : ∃ qualifier, (∀ char ∈ qualifier, InDeclarator char) ∧
      ∃ resource, behind = qualifier ++ resource ∧ boundResource resource = some rest := by
    rcases Scan.orElse_eq_some read with uniform | plain
    · obtain ⟨_, keyed, later⟩ := Scan.andThen_eq_some_iff.mp uniform
      obtain ⟨_, gaps, last⟩ := Scan.andThen_eq_some_iff.mp later
      obtain rfl := Scan.literal_eq_some_iff.mp keyed
      obtain ⟨gap, _filled, gapped, rfl, _end⟩ := Scan.oneOrMore_eq_some_iff.mp gaps
      refine ⟨"uniform" ++ gap, ?_, _, (List.append_assoc _ _ _).symm, last⟩
      refine List.forall_mem_append.mpr ⟨fun char member => .inr ?_, fun char member =>
        .inl (gapped char member)⟩
      exact (by decide : ∀ char ∈ ("uniform" : Text), isTypeChar char = true) char member
    · exact ⟨[], nofun, behind, rfl, plain⟩
  obtain ⟨resource, rfl, known⟩ := bound
  obtain ⟨apart, declared, blanks, arguments, space, tail, rfl, letters, rest⟩ :=
    boundResource_eq_some known
  refine ⟨apart, front ++ (qualifier ++ declared), blanks, arguments, space, tail, ?_, ?_, rest⟩
  · refine List.append_cancel_right (whole.trans ?_)
    simp
  · simp only [List.forall_mem_append]
    exact ⟨fun char member => .inl (blank char member), qualified, letters⟩

theorem endsWord_of_outside {inClass : Char → Bool} {first : Text} {before : Option Char}
    (wider : ∀ char, isWord char = true → inClass char = true)
    (outside : (first.getLast?.or before).any inClass = false) : endsWord first = false := by
  unfold endsWord
  cases last : first.getLast? with
  | none => rfl
  | some char =>
      rw [last] at outside
      exact Bool.eq_false_iff.mpr fun word => absurd (outside.symm.trans (wider char word)) nofun

theorem lineStart_wider : ∀ char, isWord char = true → (char != '\n') = true := by
  intro char word
  rw [bne_iff_ne]
  rintro rfl
  exact absurd word (by decide)

private theorem endsWord_of_marks {text : Text} (marks : ∀ char ∈ text, isWord char = false) :
    endsWord text = false := by
  unfold endsWord
  cases last : text.getLast? with
  | none => rfl
  | some char => exact marks char (List.mem_of_getLast? last)

private theorem endsWord_closed (front : Text) {mark : Char} {tail : Text} (other : isWord mark = false)
    (marks : ∀ char ∈ tail, isWord char = false) : endsWord (front ++ mark :: tail) = false := by
  rw [Text.endsWord_append _ (List.cons_ne_nil _ _)]
  exact endsWord_of_marks (List.forall_mem_cons.mpr ⟨other, marks⟩)

theorem apart_recordDeclaration : recordDeclaration.Apart := by
  refine Pattern.apart_atWordStart consumes_recordDeclaration fun stretch rest read ends => ?_
  have found : recordDeclaration none (stretch ++ rest) = some stretch.length := by
    unfold recordDeclaration Scan.atWordStart
    exact (Pattern.notAfter_append_eq_some_iff consumes_recordDeclaration.sound).mpr ⟨rfl, read⟩
  obtain ⟨_outside, keyword, _known, inner, members, tail, rfl, _gapped, _plain, _flat, white⟩ :=
    recordDeclaration_eq_some found
  have marks : ∀ char ∈ tail, isWord char = false := by
    intro char member
    rcases white char member with blank | rfl
    · exact isWord_of_isBlank blank
    · decide
  have brace : isWord '}' = false := by decide
  have closed : endsWord (keyword ++ (inner ++ '{' :: (members ++ '}' :: tail))) = false := by
    have whole := endsWord_closed (keyword ++ (inner ++ '{' :: members)) brace marks
    simpa using whole
  exact absurd (closed.symm.trans ends) nofun

theorem keepsStart_recordDeclaration : recordDeclaration.KeepsStart fun _ => [] := by
  intro before stretch rest found _starts
  obtain ⟨_outside, keyword, known, inner, members, tail, rfl, _rest⟩ := recordDeclaration_eq_some found
  have one := oneWord_record keyword known
  rw [List.append_assoc, Text.startsWord_append one.1]
  exact one.startsWord

theorem apart_staticLine : staticLine.Apart where
  sound := Pattern.sound_notAfter _ consumes_staticLine
  opens := by
    intro before text length found inside
    have start := (Pattern.notAfter_eq_some_iff.mp found).1
    cases before with
    | none => cases inside
    | some char => exact absurd (start.symm.trans (lineStart_wider char inside)) nofun
  closes := by
    intro before stretch rest found _ends
    exact (staticLine_eq_some found).2.1

theorem keepsStart_staticLine : staticLine.KeepsStart fun _ => [] := by
  intro before stretch rest found starts
  exact absurd ((staticLine_eq_some found).2.1.symm.trans starts) nofun

end Export
end ShaderBridge
