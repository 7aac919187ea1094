import PluginAudit.Value.Shown
import PluginAudit.Text.Utf8

namespace PluginAudit

/-- Faults of the configuration, with which a run does not start. -/
inductive ConfigFault where
  | unreadablePipeline (path cause : String)
  | pipelineNotMapping
  | sectionNotMapping (key : String)
  | totalLimitNotInteger
  | typeLimitsNotMapping
  | unknownValidator (name : String) (known : List String)
  | badRoot (path : String)
  | missingSchema (path : String)
  | unreadableSchema (path cause : String)
  | invalidSchema (path cause : String)
  deriving Repr

def ConfigFault.message : ConfigFault → String
  | .unreadablePipeline path cause => s!"Cannot read pipeline config {path}: {cause}"
  | .pipelineNotMapping => "Pipeline YAML must be a mapping"
  | .sectionNotMapping key => s!"'{key}' section must be a mapping"
  | .totalLimitNotInteger => "fail_policy.total_error_limit must be an integer"
  | .typeLimitsNotMapping => "fail_policy.per_type_limits must be a mapping"
  | .unknownValidator name known =>
    s!"Unknown validator '{name}' (expected one of: {String.intercalate commaBlank known})"
  | .badRoot path => s!"Scan root is not a readable directory: {path}"
  | .missingSchema path => s!"Plugin config schema not found: {path}"
  | .unreadableSchema path cause => s!"Cannot load plugin config schema {path}: {cause}"
  | .invalidSchema path cause => s!"Invalid plugin config schema {path}: {cause}"
where
  commaBlank : String := ", "

/-- Why the file system does not yield a file. -/
inductive FileFault where
  | missing
  | isDirectory
  | notDirectory
  | linkLoop
  deriving DecidableEq, Repr

def FileFault.label : FileFault → String
  | .missing => "FileNotFoundError"
  | .isDirectory => "IsADirectoryError"
  | .notDirectory => "NotADirectoryError"
  | .linkLoop => "OSError"

def FileFault.message : FileFault → String
  | .missing => "[Errno 2] No such file or directory"
  | .isDirectory => "[Errno 21] Is a directory"
  | .notDirectory => "[Errno 20] Not a directory"
  | .linkLoop => "[Errno 40] Too many levels of symbolic links"

inductive Fault where
  /-- A mapping was needed. -/
  | notMapping
  /-- A collection was needed. -/
  | notCollection
  /-- A number was needed. -/
  | notNumber
  /-- A value that cannot serve as a name. -/
  | notName
  /-- A value of the given type that cannot serve as a path. -/
  | notPath (type : String)
  | badInteger (text : String) (base : Nat := 10)
  | integerOfNaN
  | integerOfInfinity
  /-- An integer with more digits than are read. -/
  | longInteger (digits : Nat)
  | yaml
  | encoding (e : Text.Utf8Error)
  | file (why : FileFault) (path : String)
  /-- A path from which links lead to each other without end. -/
  | endlessLink (path : String)
  | policyNotMapping
  | circularPolicy (name : String)
  | unknownPreset (name : String)
  | config (f : ConfigFault)
  /-- A reference of a schema that leads nowhere. -/
  | noReferent (ref : String)
  /-- References of a schema that lead to each other without end. -/
  | endlessReference
  | badPattern (pattern : String)
  /-- A pattern with a greater number of repeats than can be counted. -/
  | endlessRepeat
  /-- A tag that closes nothing. -/
  | badMarkup (tag : String)
  /-- A read of more bytes than can be asked for. -/
  | oversizedRead (size : Nat)
  /-- A fault that is known by its label and its message only. -/
  | raised (label message : String)
  deriving Repr

/-- The number of digits of an integer that is read from a text. -/
def maxDigits : Nat := 4300

def longIntegerMessage (digits : Nat) : String :=
  s!"Exceeds the limit ({maxDigits} digits) for integer string conversion: value has {digits} " ++
    "digits; use sys.set_int_max_str_digits() to increase the limit"

namespace Fault

def label : Fault → String
  | .notMapping => "AttributeError"
  | .notCollection | .notNumber | .notName | .notPath _ => "TypeError"
  | .badInteger .. | .integerOfNaN | .longInteger _ | .policyNotMapping | .circularPolicy _
  | .unknownPreset _ => "ValueError"
  | .integerOfInfinity | .oversizedRead _ | .endlessRepeat => "OverflowError"
  | .yaml => "YAMLError"
  | .encoding _ => "UnicodeDecodeError"
  | .file why _ => why.label
  | .endlessLink _ => "RuntimeError"
  | .config _ => "ScanConfigurationError"
  | .noReferent _ => "_WrappedReferencingError"
  | .endlessReference => "RecursionError"
  | .badPattern _ => "error"
  | .badMarkup _ => "MarkupError"
  | .raised c _ => c

/-- The message, for those faults that have a settled one. -/
def message? : Fault → Option String
  | .notMapping | .notCollection | .notNumber | .notName | .notPath _ | .integerOfInfinity
  | .yaml | .encoding _ | .noReferent _ | .endlessReference | .badPattern _ | .badMarkup _
  | .oversizedRead _ => none
  | .badInteger text base =>
    let shown := String.ofList ((Text.quoted text).toList.take 200)
    some s!"invalid literal for int() with base {base}: {shown}"
  | .integerOfNaN => some "cannot convert float NaN to integer"
  | .longInteger digits => some (longIntegerMessage digits)
  | .file why path => some s!"{why.message}: {Text.quoted path}"
  | .endlessLink path => some s!"Symlink loop from {Text.quoted path}"
  | .endlessRepeat => some "the repetition number is too large"
  | .policyNotMapping => some "Policy YAML must be a mapping"
  | .circularPolicy name => some s!"Circular policy inheritance detected: {name}"
  | .unknownPreset name => some s!"Unknown policy preset: {name}"
  | .config f => some f.message
  | .raised _ m => some m

/-- What a violation says about a fault: its message, or its label if it has none. -/
def issue (f : Fault) : String :=
  let text :=
    match f with
    | .notPath type => s!"expected str, bytes or os.PathLike object, not {type}"
    | .encoding e => e.message
    | .oversizedRead size =>
      if size < 0x8000000000000000 then "byte string is too large"
      else "cannot fit 'int' into an index-sized integer"
    | f => f.message?.getD ""
  if text == "" then f.label else text

/-- Whether a fault is one of the file system. -/
def isFile : Fault → Bool
  | .file .. => true
  | .raised c _ => fileLabels.contains c
  | _ => false
where
  /-- The labels that faults of the file system can have. -/
  fileLabels : List String :=
    ["OSError", "BlockingIOError", "ChildProcessError", "ConnectionError", "BrokenPipeError",
      "ConnectionAbortedError", "ConnectionRefusedError", "ConnectionResetError",
      "FileExistsError", "FileNotFoundError", "InterruptedError", "IsADirectoryError",
      "NotADirectoryError", "PermissionError", "ProcessLookupError", "TimeoutError"]

/-- Whether a fault counts as a fault of a value or of the file system. -/
def isValueOrFile : Fault → Bool
  | .badInteger .. | .integerOfNaN | .longInteger _ | .policyNotMapping | .circularPolicy _
  | .unknownPreset _ | .config _ | .file .. | .encoding _ => true
  | .raised c m => c == "ValueError" || (raised c m).isFile
  | _ => false

end Fault

end PluginAudit
