import ShaderBridge.Http.JsonReader
import ShaderBridge.Vocabulary
set_option autoImplicit false

/-! The body of a compile request. Names of languages, targets and modes are any strings here;
whether they mean something is decided later, because an unknown name is answered like a failed
compilation. -/

namespace ShaderBridge.Http

structure CompileBody where
  source : RawText
  language : RawText
  target : RawText
  mode : RawText
  clean : Bool
  deriving DecidableEq, Repr

inductive BodyProblem where
  /-- The body is no JSON. -/
  | unreadable (problem : JsonProblem)
  /-- These values do not have the form that the request needs; none when there is no body. -/
  | refused (values : List JsonValue)
  deriving Repr

namespace CompileBody

/-- The value of the first of some names that an object has. -/
def field? (fields : List (RawText × JsonValue)) (names : List Text) : Option JsonValue :=
  names.findSome? fun name => fields.lookup (.ofText name)

def stringField (fields : List (RawText × JsonValue)) (names : List Text) (default : Text) :
    Except JsonValue RawText :=
  match field? fields names with
  | none => .ok (.ofText default)
  | some (.string content) => .ok content
  | some value => .error value

def flagWords : List (Text × Bool) :=
  ["0", "off", "f", "false", "n", "no"].map (·.toList, false)
    ++ ["1", "on", "t", "true", "y", "yes"].map (·.toList, true)

def flag? : JsonValue → Option Bool
  | .boolean value => some value
  | .integer value => if value = 0 then some false else if value = 1 then some true else none
  | .decimal value =>
    match value.nearest with
    | .zero => some false
    | .one => some true
    | .infinite | .other => none
  | .string word => word.toText?.bind fun word => flagWords.lookup word.toLowerAscii
  | .null | .notFinite | .array _ | .object _ => none

def flagField (fields : List (RawText × JsonValue)) (names : List Text) :
    Except JsonValue Bool :=
  match field? fields names with
  | none => .ok false
  | some value =>
    match flag? value with
    | some flag => .ok flag
    | none => .error value

def refusal {α : Type} : Except JsonValue α → List JsonValue
  | .ok _ => []
  | .error value => [value]

def ofJson : JsonValue → Except BodyProblem CompileBody
  | .object fields =>
    let source := stringField fields ["source"] []
    let language := stringField fields ["sourceLanguage", "source_language"] "slang"
    let target := stringField fields ["target"] "glsl"
    let mode := stringField fields ["mode"] "materialLibrary"
    let clean := flagField fields ["cleanExport", "clean_export"]
    match source, language, target, mode, clean with
    | .ok source, .ok language, .ok target, .ok mode, .ok clean =>
      .ok ⟨source, language, target, mode, clean⟩
    | source, language, target, mode, clean =>
      .error (.refused (refusal source ++ refusal language ++ refusal target ++ refusal mode
        ++ refusal clean))
  | value => .error (.refused [value])

def ofBytes (body : Bytes) : Except BodyProblem CompileBody :=
  if body.isEmpty then .error (.refused [])
  else
    match readJson body with
    | .ok .null => .error (.refused [])
    | .ok value => ofJson value
    | .error problem => .error (.unreadable problem)

end CompileBody
end ShaderBridge.Http
