import ShaderBridge.Module.Template
import ShaderBridge.Text.Blank
import ShaderBridge.Text.Raw
set_option autoImplicit false

/-! Embedding of a fragment into a module. The fragment is inserted as it is, with a line feed at
its end if it lacks one; a blank fragment is replaced by the placeholder of its template. -/

namespace ShaderBridge

structure WrappedModule where
  text : Text
  lineOffset : Nat
  userLines : Nat
  deriving DecidableEq, Repr

def embeddedCode (template : ModuleTemplate) (source : Text) : Text :=
  let code := if source.isBlankText then template.placeholder else source
  if code.isEmpty || Text.endsWith "\n" code then code else code ++ "\n"

def wrap (source : Text) (language : SourceLanguage) (mode : ExecutionMode) : WrappedModule :=
  let template := template language mode
  let code := embeddedCode template source
  { text := template.header ++ code ++ template.trailer
    lineOffset := template.lineOffset
    userLines := code.countLines }

def embeddedRaw (template : ModuleTemplate) (source : RawText) : RawText :=
  let code := if source.lenient.isBlankText then .ofText template.placeholder else source
  if code.isEmpty || Text.endsWith "\n" code.lenient then code else code ++ .ofText "\n"

/-- The text of the module around a fragment that may hold surrogates, each of which it keeps. -/
def wrapRaw (source : RawText) (language : SourceLanguage) (mode : ExecutionMode) : RawText :=
  let template := template language mode
  .ofText template.header ++ embeddedRaw template source ++ .ofText template.trailer

theorem embeddedRaw_ofText (template : ModuleTemplate) (source : Text) :
    embeddedRaw template (.ofText source) = .ofText (embeddedCode template source) := by
  unfold embeddedRaw embeddedCode
  rw [RawText.lenient_ofText]
  -- the same code is taken on both sides, so only its last line is left to be closed
  have chosen : (if source.isBlankText then RawText.ofText template.placeholder else .ofText source) =
      .ofText (if source.isBlankText then template.placeholder else source) := by
    cases source.isBlankText <;> rfl
  rw [chosen]
  generalize (if source.isBlankText then template.placeholder else source) = code
  have empty : (RawText.ofText code).isEmpty = code.isEmpty := List.isEmpty_map
  simp only [empty, RawText.lenient_ofText]
  split
  · rfl
  · exact (RawText.ofText_append _ _).symm

theorem surrogate_mem_embeddedRaw {source : RawText} {code : Nat}
    (broken : .surrogate code ∈ source) (template : ModuleTemplate) :
    .surrogate code ∈ embeddedRaw template source := by
  have written : source.lenient.isBlankText = false := by
    refine Bool.eq_false_iff.mpr fun blank => ?_
    have member := List.mem_map_of_mem (f := fun unit => unit.char?.getD '\uFFFD') broken
    have replaced : isBlank '\uFFFD' = true := List.all_eq_true.mp blank _ member
    exact absurd replaced (by decide)
  unfold embeddedRaw
  simp only [written, Bool.false_eq_true, if_false]
  split
  · exact broken
  · exact List.mem_append_left _ broken

/-- The raw module is Unicode text if the fragment is, and then it is the module around it. -/
theorem toText?_wrapRaw (source : RawText) (language : SourceLanguage) (mode : ExecutionMode) :
    (wrapRaw source language mode).toText? =
      source.toText?.map fun text => (wrap text language mode).text := by
  cases read : source.toText? with
  | some text =>
    have whole : wrapRaw source language mode = .ofText (wrap text language mode).text := by
      simp only [wrapRaw, wrap, RawText.eq_of_toText? read, embeddedRaw_ofText,
        RawText.ofText_append]
    rw [whole, RawText.toText?_ofText]
    rfl
  | none =>
    obtain ⟨code, broken⟩ := RawText.toText?_eq_none_iff.mp read
    refine RawText.toText?_eq_none_iff.mpr ⟨code, ?_⟩
    have inside := surrogate_mem_embeddedRaw broken (template language mode)
    exact List.mem_append_left _ (List.mem_append_right _ inside)

end ShaderBridge
