import PluginAudit.Violation

namespace PluginAudit

/-- How a type of violation is presented. The description is a template. -/
structure CatalogEntry where
  name : String
  description : String
  severity : Severity
  deriving DecidableEq, Repr, Inhabited

namespace Catalog

/-- Findings about files. -/
def discovery : Table CatalogEntry := [
  ("suspicious_filename_unicode", ⟨"Suspicious filename",
    "File name contains bidirectional control characters.", .medium⟩),
  ("suspicious_double_extension", ⟨"Double extension",
    "File name hides a PHP extension behind another one.", .medium⟩),
  ("php_payload_in_non_php", ⟨"PHP payload in non-PHP file",
    "A non-PHP file contains PHP open tags.", .high⟩),
  ("read_error", ⟨"Unreadable file", "The file could not be read.", .high⟩),
  ("parse_error", ⟨"Parse error", "The file could not be parsed as PHP.", .high⟩),
  ("config_file_too_large", ⟨"File too large",
    "File exceeds the size limit for its extension (\x7bsize\x7d bytes).", .medium⟩)]

/-- Findings about single tokens and lines. -/
def lexical : Table CatalogEntry := [
  ("invalid_token_usage", ⟨"Invalid token usage", "Use of invalid token \x7btoken\x7d.", .high⟩),
  ("invalid_token_assignment", ⟨"Invalid token assignment",
    "Invalid token \x7btoken\x7d assigned to a variable.", .medium⟩),
  ("invalid_token_function_argument", ⟨"Invalid token argument",
    "Invalid token \x7btoken\x7d passed as an argument.", .medium⟩),
  ("blocklist_instantiation", ⟨"Blocklisted instantiation",
    "Instantiation of blocklisted class \x7btoken\x7d.", .high⟩),
  ("blocklist_constructor", ⟨"Blocklisted constructor",
    "Constructor call on blocklisted class \x7btoken\x7d.", .high⟩),
  ("blocklist_class_reference", ⟨"Blocklisted class reference",
    "Static reference to blocklisted class \x7btoken\x7d.", .high⟩),
  ("blocklist_method", ⟨"Blocklisted method",
    "Method \x7bmethod\x7d of blocklisted class \x7btoken\x7d is not allowed.", .high⟩),
  ("forbidden_function", ⟨"Forbidden function",
    "Call to forbidden function \x7bfunction\x7d().", .critical⟩),
  ("forbidden_function_assignment", ⟨"Forbidden function assignment",
    "Forbidden function name \x7bfunction\x7d stored in a variable.", .high⟩),
  ("unsupported_function", ⟨"Unsupported function",
    "Call to unsupported function \x7bfunction\x7d().", .medium⟩)]

/-- Findings about namespaces and reflection. -/
def namespaces : Table CatalogEntry := [
  ("forbidden_namespace_import", ⟨"Forbidden namespace import",
    "Import from forbidden namespace \x7bnamespace\x7d.", .critical⟩),
  ("forbidden_namespace_import_function", ⟨"Forbidden function import",
    "Function import from forbidden namespace \x7bnamespace\x7d.", .critical⟩),
  ("forbidden_namespace_import_const", ⟨"Forbidden constant import",
    "Constant import from forbidden namespace \x7bnamespace\x7d.", .critical⟩),
  ("forbidden_namespace_reference", ⟨"Forbidden namespace reference",
    "Reference to forbidden namespace \x7bnamespace\x7d.", .critical⟩),
  ("forbidden_namespace_string", ⟨"Forbidden namespace string",
    "String mentions forbidden namespace \x7bnamespace\x7d.", .high⟩),
  ("forbidden_namespace_string_reference", ⟨"Forbidden namespace string",
    "String literal names forbidden namespace \x7bnamespace\x7d.", .high⟩),
  ("forbidden_namespace_extends", ⟨"Forbidden parent class",
    "Class extends \x7bclass_name\x7d from forbidden namespace \x7bnamespace\x7d.", .critical⟩),
  ("forbidden_namespace_implements", ⟨"Forbidden interface",
    "Class implements \x7bclass_name\x7d from forbidden namespace \x7bnamespace\x7d.", .critical⟩),
  ("forbidden_namespace_trait_use", ⟨"Forbidden trait",
    "Class uses trait \x7bclass_name\x7d from forbidden namespace \x7bnamespace\x7d.", .critical⟩),
  ("always_forbidden_reflection", ⟨"Reflection",
    "Reflection class \x7bclass_name\x7d used (\x7bkind\x7d).", .high⟩),
  ("reflection_usage", ⟨"Reflection usage", "Reflection API usage: \x7bclass_name\x7d.", .high⟩)]

/-- Findings about calls. -/
def calls : Table CatalogEntry := [
  ("always_forbidden_function", ⟨"Always-forbidden function",
    "Call to always-forbidden function \x7bfunction\x7d().", .critical⟩),
  ("config_dangerous_function", ⟨"Dangerous function",
    "Call to host-listed dangerous function \x7bfunction\x7d().", .medium⟩),
  ("config_risky_function", ⟨"Risky function",
    "Call to host-listed risky function \x7bfunction\x7d().", .low⟩),
  ("obfuscation_function", ⟨"Obfuscation function",
    "Call to obfuscation-capable function \x7bfunction\x7d().", .medium⟩),
  ("function_call_chain_forbidden", ⟨"Forbidden call chain",
    "\x7bfunction\x7d() returns a forbidden construct through its call chain.", .critical⟩),
  ("dynamic_code_from_superglobal", ⟨"Code from request input",
    "\x7bfunction\x7d() executes code derived from request input.", .critical⟩),
  ("backdoor_variable_function_call", ⟨"Variable function call",
    "Function called through variable $\x7bvar\x7d.", .high⟩),
  ("backdoor_variable_function_call_superglobal", ⟨"Variable function from input",
    "Function name in $\x7bvar\x7d comes from request input.", .critical⟩),
  ("backdoor_variable_function_call_chain_forbidden", ⟨"Variable function chain",
    "$\x7bvar\x7d() resolves to \x7bresolved_function\x7d() which is forbidden.", .critical⟩),
  ("backdoor_concat_function_call", ⟨"Concatenated function call",
    "Function name built by concatenation: \x7bexpression\x7d.", .high⟩),
  ("backdoor_concat_function_call_unknown", ⟨"Unresolved concatenated call",
    "Concatenated function name could not be resolved.", .high⟩),
  ("backdoor_concat_function_call_always_forbidden", ⟨"Concatenated forbidden call",
    "Concatenated call resolves to forbidden \x7bexpression\x7d().", .critical⟩),
  ("backdoor_concat_function_call_unsupported", ⟨"Concatenated unsupported call",
    "Concatenated call resolves to unsupported \x7bexpression\x7d().", .medium⟩),
  ("backdoor_concat_function_call_chain_forbidden", ⟨"Concatenated call chain",
    "Concatenated call \x7bexpression\x7d() chains to a forbidden construct.", .critical⟩),
  ("always_forbidden_obfuscated_eval", ⟨"Obfuscated eval",
    "eval() runs the output of a decoding chain.", .critical⟩),
  ("always_forbidden_wrapper_stream", ⟨"Forbidden stream wrapper",
    "\x7bfunction\x7d() uses forbidden stream wrapper \x7bwrapper\x7d.", .critical⟩)]

/-- Findings about callbacks and closures. -/
def callbacks : Table CatalogEntry := [
  ("callback_always_forbidden", ⟨"Forbidden callback",
    "\x7bfunction\x7d() given forbidden callback \x7bcallback\x7d.", .critical⟩),
  ("always_forbidden_callback_to_forbidden_function", ⟨"Forbidden callback registration",
    "\x7bfunction\x7d() registers forbidden \x7bcallback\x7d().", .critical⟩),
  ("callback_unsupported", ⟨"Unsupported callback",
    "\x7bfunction\x7d() given unsupported callback \x7bcallback\x7d.", .medium⟩),
  ("callback_user_defined_forbidden_chain", ⟨"Callback chain",
    "\x7bfunction\x7d() given \x7bcallback\x7d which chains to a forbidden construct.", .critical⟩),
  ("callback_closure_forbidden", ⟨"Forbidden closure callback",
    "Closure passed to \x7bfunction\x7d() calls forbidden code.", .critical⟩),
  ("closure_calls_always_forbidden", ⟨"Closure calls forbidden function",
    "Closure calls forbidden function \x7bfunction\x7d().", .critical⟩),
  ("closure_calls_unsupported", ⟨"Closure calls unsupported function",
    "Closure calls unsupported function \x7bfunction\x7d().", .medium⟩),
  ("closure_calls_forbidden_chain", ⟨"Closure call chain",
    "Closure calls \x7bfunction\x7d() which returns a forbidden construct.", .critical⟩)]

/-- Findings about methods and classes. -/
def classes : Table CatalogEntry := [
  ("backdoor_dynamic_method_call_complex", ⟨"Computed method name",
    "Method name computed from an expression.", .high⟩),
  ("backdoor_dynamic_method_call_superglobal", ⟨"Method name from input",
    "Method name in $\x7bvar\x7d comes from request input.", .critical⟩),
  ("backdoor_dynamic_method_call_unresolved", ⟨"Unresolved method name",
    "Method name in $\x7bvar\x7d could not be resolved.", .high⟩),
  ("backdoor_dynamic_method_call_forbidden", ⟨"Dynamic forbidden method",
    "Method $\x7bvar\x7d resolves to forbidden \x7bresolved_method\x7d.", .critical⟩),
  ("backdoor_dynamic_method_call_chain_forbidden",
    ⟨"Dynamic method chain",
      "Method $\x7bvar\x7d resolves to \x7bclass_name\x7d::\x7bresolved_method\x7d " ++
        "which chains to a forbidden construct.", .critical⟩),
  ("config_blocked_method", ⟨"Blocked method",
    "Method \x7bmethod\x7d of \x7bclass_name\x7d is not in the allowed list.", .critical⟩),
  ("anonymous_class_leak", ⟨"Anonymous class leak",
    "Anonymous class with dangerous members is instantiated.", .high⟩),
  ("backdoor_dynamic_class_instantiation_complex", ⟨"Computed class name",
    "Class name computed from an expression.", .high⟩),
  ("backdoor_dynamic_class_instantiation_superglobal", ⟨"Class name from input",
    "Class name in $\x7bvar\x7d comes from request input.", .critical⟩),
  ("backdoor_dynamic_class_instantiation_unresolved", ⟨"Unresolved class name",
    "Class name in $\x7bvar\x7d could not be resolved.", .high⟩),
  ("backdoor_dynamic_class_instantiation_forbidden", ⟨"Dynamic forbidden class",
    "Class in $\x7bvar\x7d resolves to forbidden \x7bclass_name\x7d.", .critical⟩),
  ("always_forbidden_magic_method", ⟨"Forbidden magic method",
    "Magic method \x7bmethod\x7d is not allowed.", .high⟩),
  ("magic_method_defined", ⟨"Magic method", "Magic method \x7bmethod\x7d is defined.", .low⟩)]

/-- Findings about includes, variables and values that outlive a call. -/
def state : Table CatalogEntry := [
  ("always_forbidden_wrapper_stream_include", ⟨"Forbidden include wrapper",
    "Include through forbidden stream wrapper \x7bwrapper\x7d.", .critical⟩),
  ("include_forbidden_wrapper", ⟨"Include wrapper",
    "Include path uses stream wrapper \x7bwrapper\x7d.", .critical⟩),
  ("always_forbidden_dynamic_include", ⟨"Dynamic include",
    "Include path is computed at runtime (\x7bexpr_type\x7d).", .high⟩),
  ("include_dynamic_path_superglobal", ⟨"Include from input",
    "Include path derives from request input.", .critical⟩),
  ("include_dynamic_path", ⟨"Dynamic include path", "Include path is not a literal.", .high⟩),
  ("variable_variable_usage", ⟨"Variable variable",
    "Variable variable \x7bexpression\x7d used.", .high⟩),
  ("dynamic_property_access", ⟨"Dynamic property",
    "Property accessed through $\x7bvar\x7d.", .medium⟩),
  ("dynamic_property_access_superglobal", ⟨"Property name from input",
    "Property name in $\x7bvar\x7d comes from request input.", .critical⟩),
  ("dynamic_property_access_chain_forbidden", ⟨"Dynamic property chain",
    "Property $\x7bvar\x7d on \x7bclass_name\x7d resolves to a forbidden construct.", .critical⟩),
  ("dynamic_static_property_access", ⟨"Dynamic static property",
    "Static property name computed: \x7bexpression\x7d.", .medium⟩),
  ("global_or_session_leak", ⟨"Global or session leak",
    "Dangerous value stored in \x7btarget\x7d.", .high⟩),
  ("anonymous_function_leak", ⟨"Closure leak",
    "Closure calling dangerous code stored for later use.", .high⟩),
  ("static_variable_leak", ⟨"Static variable leak",
    "Static variable $\x7bvar\x7d holds a dangerous value.", .high⟩)]

/-- Findings about return values. -/
def returns : Table CatalogEntry := [
  ("return_forbidden_function", ⟨"Returns forbidden function",
    "Function returns forbidden \x7bfunction\x7d.", .critical⟩),
  ("return_forbidden_class", ⟨"Returns forbidden class",
    "Function returns an instance of forbidden \x7bclass_name\x7d.", .critical⟩),
  ("return_indirect_forbidden_chain", ⟨"Indirect forbidden return",
    "Returned \x7bfunction\x7d() chains to a forbidden construct.", .critical⟩),
  ("return_indirect_forbidden_method_chain", ⟨"Indirect forbidden method return",
    "Returned \x7bclass_name\x7d::\x7bmethod\x7d() chains to a forbidden construct.", .critical⟩)]

/-- Findings about the files that come with a plugin, and failures of a check. -/
def packages : Table CatalogEntry := [
  ("composer.composer_file_missing", ⟨"composer.json missing",
    "composer.json not found.", .medium⟩),
  ("composer.composer_file_invalid", ⟨"composer.json invalid",
    "composer.json is not valid JSON.", .high⟩),
  ("composer.forbidden_package_dependency", ⟨"Forbidden package",
    "Composer requires forbidden package \x7bpackage\x7d (\x7bversion\x7d).", .critical⟩),
  ("composer.exception", ⟨"Composer scan failed", "The composer scan raised an error.", .high⟩),
  ("config.schema", ⟨"Plugin config invalid", "plugin.config.json failed validation.", .high⟩),
  ("config.exception", ⟨"Plugin config check failed",
    "The plugin config check raised an error.", .high⟩),
  ("hostconfig.error", ⟨"Host config invalid", "The host configuration is invalid.", .high⟩),
  ("manifest.invalid", ⟨"Permission manifest invalid",
    "The permission manifest is invalid.", .high⟩),
  ("route.invalid", ⟨"Route file invalid", "A route file is invalid.", .high⟩),
  ("scanner.exception", ⟨"Scanner failed", "The file scanner raised an error.", .high⟩),
  ("content.exception", ⟨"Content scan failed", "The content scan raised an error.", .high⟩),
  ("token.exception", ⟨"Token scan failed", "The token analysis raised an error.", .high⟩),
  ("ast.exception", ⟨"Syntax scan failed", "The syntax-tree scan raised an error.", .high⟩)]

/-- All types of violations. -/
def entries : Table CatalogEntry :=
  discovery ++ lexical ++ namespaces ++ calls ++ callbacks ++ classes ++ state ++ returns ++
    packages

/-- All types of violations in alphabetical order. -/
def listed : Table CatalogEntry :=
  List.mergeSort entries fun a b => decide (a.1 ≤ b.1)

end Catalog

end PluginAudit
