import ShaderBridge.Pipeline.Compile
import ShaderBridge.Proofs.Storage.Path
set_option autoImplicit false

namespace ShaderBridge

theorem planStages_ne_nil (language : SourceLanguage) (target : TargetFormat) :
    planStages language target ≠ [] := by
  cases language <;> cases target <;> exact List.cons_ne_nil _ _

theorem stage_ne_validation {language : SourceLanguage} {target : TargetFormat} {plan : StagePlan}
    (planned : plan ∈ planStages language target) : plan.stage ≠ .validation := by
  have all : ∀ plan ∈ planStages language target, plan.stage ≠ .validation := by
    cases language <;> cases target <;> decide
  exact all plan planned

theorem tool_of_not_consumesModule {language : SourceLanguage} {target : TargetFormat}
    {plan : StagePlan} (planned : plan ∈ planStages language target)
    (other : plan.consumesModule = false) : plan.tool = .spirvCross := by
  have all : ∀ plan ∈ planStages language target,
      plan.consumesModule = false → plan.tool = .spirvCross := by
    cases language <;> cases target <;> decide
  exact all plan planned other

theorem isName_sourceFile (language : SourceLanguage) : Path.IsName (sourceFile language) := by
  cases language <;> exact ⟨by decide, by decide, by decide, by decide⟩

theorem null_not_mem_sourceFile (language : SourceLanguage) : '\x00' ∉ sourceFile language := by
  cases language <;> decide

section
variable {language : SourceLanguage} {target : TargetFormat} {plan : StagePlan}
variable (planned : plan ∈ planStages language target)
include planned

theorem isName_output : Path.IsName plan.output := by
  have all : ∀ plan ∈ planStages language target, plan.output ≠ [] ∧ '/' ∉ plan.output ∧
      plan.output ≠ ['.'] ∧ plan.output ≠ ['.', '.'] := by
    cases language <;> cases target <;> decide
  obtain ⟨some, flat, own, lower⟩ := all plan planned
  exact ⟨some, flat, own, lower⟩

theorem null_not_mem_output : '\x00' ∉ plan.output := by
  have all : ∀ plan ∈ planStages language target, '\x00' ∉ plan.output := by
    cases language <;> cases target <;> decide
  exact all plan planned

end
end ShaderBridge
