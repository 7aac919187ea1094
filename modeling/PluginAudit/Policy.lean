import PluginAudit.Value
import PluginAudit.Table
import PluginAudit.Text.Blank
import PluginAudit.Text.Case
import PluginAudit.Text.Parts

namespace PluginAudit

/-- Which files are eligible, how large they may be, and which are ignored. -/
structure ScanLimits where
  phpExtensions : List String
  scanSize : Table Int
  maxWebFileBytes : Int
  strictIgnoreBlocksPayload : Bool
  shortOpenTags : Bool
  emitPreFlags : Bool
  includeNonPhp : Bool
  ignore : List String
  deriving Inhabited

/-- A policy. Names of functions, packages, methods and wrappers are in lower case; namespaces have
no backslashes around them. -/
structure Policy where
  name : Value
  description : Value
  forbiddenFunctions : List String
  unsupportedFunctions : List String
  dangerousFunctions : List String
  riskyFunctions : List String
  obfuscators : List String
  callbackFunctions : List String
  forbiddenNamespaces : List String
  forbiddenPackages : List String
  reflectionPrefix : String
  allowedNamespaces : List String
  magicMethods : List String
  wrappers : List String
  allowedClassMethods : Table (List String)
  limits : ScanLimits
  inherit : List String
  deriving Inhabited

namespace Policy

/-- The form of a function name in the lists of a policy. -/
def functionKey (name : String) : String :=
  Text.lower (Text.trimLeft (· == '\\') (Text.strip name))

def isForbiddenFunction (p : Policy) (name : String) : Bool :=
  p.forbiddenFunctions.contains (functionKey name)

def isUnsupportedFunction (p : Policy) (name : String) : Bool :=
  p.unsupportedFunctions.contains (functionKey name)

def isObfuscator (p : Policy) (name : String) : Bool :=
  p.obfuscators.contains (functionKey name)

def isCallbackFunction (p : Policy) (name : String) : Bool :=
  p.callbackFunctions.contains (functionKey name)

def isForbiddenMagicMethod (p : Policy) (name : String) : Bool :=
  p.magicMethods.contains (Text.lower name)

/-- Whether `key` is the namespace `ns` or lies inside it. -/
def liesIn (key ns : String) : Bool :=
  key == ns || Text.startsWith key (ns ++ "\\")

/-- The forbidden namespace that covers a name. -/
def forbiddenNamespaceFor? (p : Policy) (name : String) : Option String :=
  let key := Text.lower (Text.trimBackslashes name)
  if key == "" then none
  else p.forbiddenNamespaces.find? fun ns => liesIn key (Text.lower ns)

def isForbiddenNamespace (p : Policy) (name : String) : Bool :=
  (p.forbiddenNamespaceFor? name).isSome

/-- Whether a class belongs to the reflection interface and to no allowed namespace. -/
def isForbiddenReflection (p : Policy) (className : String) : Bool :=
  let key := Text.lower (Text.trimBackslashes className)
  Text.startsWith (Text.lastPart '\\' key) p.reflectionPrefix &&
    !p.allowedNamespaces.any fun ns =>
      key == Text.lower ns ||
        Text.startsWith key (Text.trimRight (· == '\\') (Text.lower ns) ++ "\\")

def isForbiddenPackage (p : Policy) (package : String) : Bool :=
  p.forbiddenPackages.contains (Text.lower (Text.strip package))

/-- The forbidden stream wrapper that a path starts with. -/
def forbiddenWrapperFor? (p : Policy) (path : String) : Option String :=
  let lowered := Text.lower path
  p.wrappers.find? fun w => Text.startsWith lowered w

/-- The methods that are allowed of a blocklisted class; none if the class is not listed. -/
def allowedMethodsFor? (p : Policy) (className : String) : Option (List String) :=
  p.allowedClassMethods.find? (Text.lower (Text.trimBackslashes className))

/-- Whether a class lies in a forbidden namespace or is forbidden reflection. -/
def isForbiddenClass (p : Policy) (className : String) : Bool :=
  p.isForbiddenNamespace className || p.isForbiddenReflection className

/-- Whether a function is forbidden or unsupported. -/
def isForbiddenName (p : Policy) (name : String) : Bool :=
  p.isForbiddenFunction name || p.isUnsupportedFunction name

end Policy

end PluginAudit
