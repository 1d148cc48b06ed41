namespace PlatformRules

inductive Severity where
  | critical
  | high
  | medium
  | low
deriving Repr, DecidableEq

def Severity.name : Severity → String
  | critical => "Critical"
  | high => "High"
  | medium => "Medium"
  | low => "Low"

structure CodeInfo where
  code : String
  category : String
  severity : Severity
  recoverable : Bool
  halts : Bool
  description : String
  advice : String
deriving Repr, DecidableEq

namespace CodeInfo

def all : List CodeInfo := [
  ⟨"ERR001", "System", .critical, false, true,
    "Internal toolchain error",
    "Report the failing document and machine descriptor"⟩,
  ⟨"ERR002", "System", .critical, false, true,
    "Logging or runtime initialization failed",
    "Check logging configuration and environment variables"⟩,
  ⟨"ERR010", "Configuration", .high, true, false,
    "Runtime configuration could not be loaded",
    "Fix the TOML syntax or path of the runtime configuration"⟩,
  ⟨"ERR011", "Configuration", .high, true, false,
    "Logging configuration rejected",
    "Review RSML_LOGGING_* settings"⟩,
  ⟨"E020", "Lexical", .high, false, false,
    "Source line exceeds the maximum line length",
    "Split or shorten the line"⟩,
  ⟨"E021", "Lexical", .high, false, false,
    "Line produces more tokens than a line can hold",
    "Remove extra logic path components"⟩,
  ⟨"E022", "Lexical", .high, false, false,
    "Document exceeds the maximum document size",
    "Reduce the document size or rebuild with a larger limit"⟩,
  ⟨"E030", "Normalization", .high, false, false,
    "Line carries no tokens",
    "Internal pipeline misuse; tokenize the line first"⟩,
  ⟨"E031", "Normalization", .high, false, false,
    "Token sequence matches no known statement shape",
    "Check the statement against the RSML grammar"⟩,
  ⟨"E032", "Normalization", .high, false, false,
    "Line starts with a token that cannot begin a statement",
    "Start the line with '#', '@', '->' or '!>'"⟩,
  ⟨"E040", "Validation", .high, false, false,
    "Empty token sequence",
    "Provide a non-empty line"⟩,
  ⟨"E041", "Validation", .high, false, false,
    "Malformed comment",
    "Write comments as '# text'"⟩,
  ⟨"E042", "Validation", .high, false, false,
    "Malformed special action",
    "Write special actions as '@Name argument'"⟩,
  ⟨"E043", "Validation", .high, false, false,
    "Invalid special action name",
    "Use Void, ThrowError, EndAll or a registered name"⟩,
  ⟨"E044", "Validation", .high, false, false,
    "Line does not start with a statement token",
    "Start the line with '#', '@', '->' or '!>'"⟩,
  ⟨"E045", "Validation", .high, false, false,
    "Invalid logic path operator",
    "Use '->' or '!>'"⟩,
  ⟨"E046", "Validation", .high, false, false,
    "Logic path component in the wrong position",
    "Order components as system, comparator, version, architecture, value"⟩,
  ⟨"E047", "Validation", .high, false, false,
    "Keyword token does not carry its keyword text",
    "Use 'any' or 'defined'"⟩,
  ⟨"E048", "Validation", .high, false, false,
    "Unknown system name",
    "Use windows, osx, linux, freebsd, debian, ubuntu, archlinux or fedora"⟩,
  ⟨"E049", "Validation", .high, false, false,
    "Unknown processor architecture",
    "Use x64, x86, arm64, arm32 or loongarch64"⟩,
  ⟨"E050", "Validation", .high, false, false,
    "Unknown comparator",
    "Use ==, !=, <, >, <= or >="⟩,
  ⟨"E051", "Validation", .high, false, false,
    "Major version is not an integer",
    "Write the version as a whole number"⟩,
  ⟨"E052", "Validation", .high, false, false,
    "Comparator used without a concrete version",
    "Follow a comparator with an integer version"⟩,
  ⟨"E053", "Validation", .high, false, false,
    "Unrecognized logic path overload",
    "Check the number of components"⟩,
  ⟨"E060", "Evaluation", .critical, false, true,
    "Validated line has an unexpected token count",
    "Report the document that triggered this"⟩,
  ⟨"E061", "Evaluation", .high, false, false,
    "Special action is not registered",
    "Register the action before evaluating"⟩,
  ⟨"E062", "Evaluation", .high, false, false,
    "Special action reported an error",
    "Inspect the action callback"⟩,
  ⟨"E063", "Evaluation", .medium, false, false,
    "Document raised an error for this machine",
    "Read the author-supplied message"⟩,
  ⟨"E064", "Evaluation", .medium, true, false,
    "Special action or middleware registration rejected",
    "Use a non-reserved name and stay within registry limits"⟩,
  ⟨"E080", "Native", .high, true, false,
    "Null pointer passed across the C ABI",
    "Pass valid pointers"⟩,
  ⟨"E081", "Native", .medium, true, false,
    "Result buffer too small",
    "Retry with a larger buffer"⟩,
  ⟨"E082", "Native", .high, true, false,
    "Document is not valid UTF-8",
    "Encode documents as UTF-8"⟩,
  ⟨"E083", "Native", .high, true, false,
    "Token struct holds an invalid kind or range",
    "Only pass tokens produced by the toolchain"⟩,
  ⟨"E090", "Host", .medium, true, false,
    "Host machine probing failed",
    "Supply the machine descriptor explicitly"⟩,
  ⟨"E091", "Host", .medium, true, false,
    "Probe command failed",
    "Check that the command exists and is executable"⟩,
  ⟨"E092", "Host", .medium, true, false,
    "Probe command timed out",
    "Raise command_timeout_ms in the build profile"⟩,
  ⟨"E093", "Host", .high, true, false,
    "Probe command not in the allowed list",
    "Only whitelisted commands may run"⟩,
  ⟨"E094", "Host", .low, true, false,
    "/etc/os-release could not be read",
    "Supply distro fields explicitly"⟩,
  ⟨"E100", "Documents", .high, true, false,
    "Document file could not be read",
    "Check the path and file permissions"⟩,
  ⟨"E101", "Documents", .medium, true, false,
    "No .rsml documents under the given directory",
    "Point at a document or a directory holding .rsml files"⟩,
  ⟨"E102", "Documents", .high, true, false,
    "Result could not be written",
    "Check the output destination"⟩,
  ⟨"I004", "System", .low, true, false,
    "System initialization completed successfully",
    "Continue normal operation"⟩,
  ⟨"I010", "Evaluation", .low, true, false,
    "Document produced a value",
    "Continue normal operation"⟩,
  ⟨"I011", "Evaluation", .low, true, false,
    "Document produced no value",
    "Continue normal operation"⟩,
  ⟨"I012", "Validation", .low, true, false,
    "Document checked without errors",
    "Continue normal operation"⟩,
  ⟨"I020", "Host", .low, true, false,
    "Host machine descriptor collected",
    "Continue normal operation"⟩]

def find? (code : String) : Option CodeInfo :=
  all.find? fun i => i.code == code

def unknown (code : String) : CodeInfo :=
  ⟨code, "Unknown", .medium, true, false, "Unknown error", "No specific action available"⟩

def ofCode (code : String) : CodeInfo :=
  (find? code).getD (unknown code)

end CodeInfo

end PlatformRules
