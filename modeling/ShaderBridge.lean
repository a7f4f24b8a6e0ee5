import ShaderBridge.Http.Server
import ShaderBridge.Main
import ShaderBridge.Proofs.Effect
import ShaderBridge.Proofs.Pipeline.Move
import ShaderBridge.Proofs.Pipeline.Recording
import ShaderBridge.Proofs.Pipeline.Course
import ShaderBridge.Proofs.Pipeline.Result
import ShaderBridge.Proofs.Pipeline.ToolCalls
import ShaderBridge.Proofs.Storage.FileStore
import ShaderBridge.Proofs.Storage.Workspace
import ShaderBridge.Proofs.Diagnostic.Translate
import ShaderBridge.Proofs.Pipeline.Faults
import ShaderBridge.Proofs.Pipeline.Cleanup
import ShaderBridge.Proofs.Text.Search
import ShaderBridge.Proofs.Text.Character
import ShaderBridge.Proofs.Text.Parts
import ShaderBridge.Proofs.Text.Lexeme
import ShaderBridge.Proofs.Code.Rename
import ShaderBridge.Proofs.Module.Wrap
import ShaderBridge.Proofs.Code.Directive
import ShaderBridge.Proofs.Export.Glsl
import ShaderBridge.Proofs.Diagnostic.Report
import ShaderBridge.Proofs.Pipeline.Explanation
import ShaderBridge.Proofs.Export.Plain
import ShaderBridge.Proofs.Code.Loop
import ShaderBridge.Proofs.Code.Function
import ShaderBridge.Proofs.Code.Statement
import ShaderBridge.Proofs.Code.VectorCall
import ShaderBridge.Proofs.Export.Return
import ShaderBridge.Proofs.Export.Unreal
import ShaderBridge.Proofs.Export.Branch
import ShaderBridge.Proofs.Export.Inputs
import ShaderBridge.Proofs.Export.Names
import ShaderBridge.Proofs.Code.Division
import ShaderBridge.Proofs.Code.Reader
import ShaderBridge.Proofs.Code.Reading
import ShaderBridge.Proofs.Export.Color
import ShaderBridge.Proofs.Code.Place
import ShaderBridge.Proofs.Code.Access
import ShaderBridge.Proofs.Code.Between
import ShaderBridge.Proofs.Export.NodeInputs
import ShaderBridge.Proofs.Export.Shadow
import ShaderBridge.Proofs.Code.Call
import ShaderBridge.Proofs.Text.Removal
import ShaderBridge.Proofs.Diagnostic.Reading
import ShaderBridge.Proofs.Diagnostic.Lines
import ShaderBridge.Proofs.Diagnostic.Printing
import ShaderBridge.Proofs.Diagnostic.ValidatorOutput
import ShaderBridge.Proofs.Diagnostic.Note
import ShaderBridge.Proofs.Diagnostic.CompilerOutput
import ShaderBridge.Proofs.Export.Collapse
import ShaderBridge.Proofs.Export.Declaration
import ShaderBridge.Proofs.Export.Preamble
import ShaderBridge.Proofs.Export.Helpers
import ShaderBridge.Proofs.Text.Base64
import ShaderBridge.Proofs.Pipeline.Artifact
import ShaderBridge.Proofs.Cli.Job
import ShaderBridge.Proofs.Cli.Rebuild
import ShaderBridge.Proofs.Cli.Run
import ShaderBridge.Proofs.Http.Answer
import ShaderBridge.Proofs.Binary
import ShaderBridge.Proofs.Cli.Updates
import ShaderBridge.Proofs.Pipeline.Together
import ShaderBridge.Proofs.Storage.Content
import ShaderBridge.Proofs.Cli.Completion
import ShaderBridge.Proofs.Cli.Output
import ShaderBridge.Proofs.Http.Reply
import ShaderBridge.Proofs.Code.Sentence
import ShaderBridge.Proofs.Export.Assignment
import ShaderBridge.Proofs.Export.Clause
import ShaderBridge.Proofs.Export.Body
import ShaderBridge.Proofs.Export.Execution
import ShaderBridge.Proofs.Code.Nesting
import ShaderBridge.Proofs.Export.Truncation
import ShaderBridge.Proofs.Code.CallSite
import ShaderBridge.Proofs.Code.Repetition
import ShaderBridge.Proofs.Code.Declared
import ShaderBridge.Proofs.Export.Shorthand
import ShaderBridge.Proofs.Code.Counter
import ShaderBridge.Proofs.Code.Endless
import ShaderBridge.Proofs.Text.Utf8
import ShaderBridge.Proofs.Diagnostic.Capture
import ShaderBridge.Proofs.Text.Marks
import ShaderBridge.Proofs.Code.Comment
import ShaderBridge.Proofs.Code.Segmentation
import ShaderBridge.Proofs.Code.Conditional
import ShaderBridge.Proofs.Code.Canonical
import ShaderBridge.Proofs.Code.Indentation
import ShaderBridge.Proofs.Code.Arguments
import ShaderBridge.Proofs.Code.Matching
