/-
This file writes configurations as JSON and reads them back, with a library for
JSON. A document may give the settings by name, where settings left out keep
their defaults and other names are passed over, or as an array in the order in
which the settings are declared, where those missing at the end keep their
defaults.

The sets of names may be listed in any order: a set that is held as a hash table
is written in the order in which the table keeps it.
-/

import Reckon.Configuration
import Reckon.Json.Values

namespace Reckon.Configuration

/-- The names of the settings, in the order in which they are declared. -/
def settingNames : List String :=
  ["strict_mode", "max_recursion_depth", "evaluation_timeout_ms", "timeout_check_interval",
    "debug_mode", "variable_whitelist", "variable_blacklist", "function_whitelist",
    "function_blacklist", "undefined_value", "cache_evaluations"]

/-! ### Writing -/

/-- The names of the four sets of a configuration, each set in some order. -/
structure Listing (configuration : Configuration) where
  variableWhitelist : List String
  variableBlacklist : List String
  functionWhitelist : List String
  functionBlacklist : List String
  variablesAdmitted : variableWhitelist.Perm configuration.variableWhitelist.names
  variablesRefused : variableBlacklist.Perm configuration.variableBlacklist.names
  functionsAdmitted : functionWhitelist.Perm configuration.functionWhitelist.names
  functionsRefused : functionBlacklist.Perm configuration.functionBlacklist.names

namespace Listing

variable {configuration : Configuration}

/-- The listing in increasing order. -/
def increasing (configuration : Configuration) : Listing configuration where
  variableWhitelist := configuration.variableWhitelist.names
  variableBlacklist := configuration.variableBlacklist.names
  functionWhitelist := configuration.functionWhitelist.names
  functionBlacklist := configuration.functionBlacklist.names
  variablesAdmitted := .refl _
  variablesRefused := .refl _
  functionsAdmitted := .refl _
  functionsRefused := .refl _

/-- The settings of a configuration with the names of its sets as they are listed. -/
def members (listing : Listing configuration) : List (String × Json) :=
  [("strict_mode", .boolean configuration.strictMode),
    ("max_recursion_depth", .integer configuration.maxRecursionDepth.toNat),
    ("evaluation_timeout_ms", .integer configuration.evaluationTimeout.toNat),
    ("timeout_check_interval", .integer configuration.timeoutCheckInterval.toNat),
    ("debug_mode", .boolean configuration.debugMode),
    ("variable_whitelist", .array (listing.variableWhitelist.map .text)),
    ("variable_blacklist", .array (listing.variableBlacklist.map .text)),
    ("function_whitelist", .array (listing.functionWhitelist.map .text)),
    ("function_blacklist", .array (listing.functionBlacklist.map .text)),
    ("undefined_value", configuration.undefinedValue.toJson),
    ("cache_evaluations", .boolean configuration.cacheEvaluations)]

/-- The JSON text of a configuration whose sets are listed so. -/
def toText (library : JsonLibrary) (listing : Listing configuration) : String :=
  library.write (.object listing.members)

end Listing

/-! ### Reading -/

/-- A configuration with one setting read from a document. -/
def withSetting? (library : JsonLibrary) (configuration : Configuration) (setting : String)
    (document : Json) : Option Configuration :=
  match setting with
  | "strict_mode" => (library.truth? document).map ({ configuration with strictMode := · })
  | "max_recursion_depth" =>
    (library.count? document).map ({ configuration with maxRecursionDepth := · })
  | "evaluation_timeout_ms" =>
    (library.count? document).map ({ configuration with evaluationTimeout := · })
  | "timeout_check_interval" =>
    (library.count? document).map ({ configuration with timeoutCheckInterval := · })
  | "debug_mode" => (library.truth? document).map ({ configuration with debugMode := · })
  | "variable_whitelist" =>
    (library.names? document).map ({ configuration with variableWhitelist := · })
  | "variable_blacklist" =>
    (library.names? document).map ({ configuration with variableBlacklist := · })
  | "function_whitelist" =>
    (library.names? document).map ({ configuration with functionWhitelist := · })
  | "function_blacklist" =>
    (library.names? document).map ({ configuration with functionBlacklist := · })
  | "undefined_value" =>
    (Value.ofJson? library document).map ({ configuration with undefinedValue := · })
  | "cache_evaluations" =>
    (library.truth? document).map ({ configuration with cacheEvaluations := · })
  | _ => none

/-- The configuration of defaults with settings read one after the other. -/
def ofSettings? (library : JsonLibrary) (settings : List (String × Json)) : Option Configuration :=
  settings.foldlM (fun configuration setting =>
    configuration.withSetting? library setting.1 setting.2) {}

/-- Reads a configuration from a document. Each setting may stand there once. -/
def ofJson? (library : JsonLibrary) : Json → Option Configuration
  | .object members =>
    let known := members.filter fun member => member.1 ∈ settingNames
    if (known.map Prod.fst).Nodup then ofSettings? library known else none
  | .array items =>
    if settingNames.length < items.length then none
    else ofSettings? library (settingNames.zip items)
  | _ => none

/-- Reads a configuration from a JSON text. -/
def ofText? (library : JsonLibrary) (source : String) : Option Configuration :=
  (library.read? settingNames source).bind (ofJson? library)

end Reckon.Configuration
