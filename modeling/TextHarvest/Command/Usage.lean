import TextHarvest.Command.Arguments

/-!
# Usage

What is printed when a command line asks for help or the version, or cannot be read.
-/

namespace TextHarvest.UsageError

/-- The summary of commands and options. -/
def helpText : String :=
  "\n".intercalate
    ["Usage: text-harvest [OPTIONS] [COMMAND]",
      "",
      "Commands:",
      "  extract    Extract texts into the locale file of the sources",
      "  translate  Fill the other locale files (alias: t)",
      "  clean      Drop keys that the sources no longer have (alias: c)",
      "  init       Write a configuration file with the default options",
      "  help       Print this help",
      "",
      "Options:",
      "      --root <DIR>          Directory to start the search for the configuration from",
      "  -v, --verbose             Print more",
      "  -q, --quiet               Print errors only",
      "      --no-color            Print without colors",
      "  -h, --help                Print this help",
      "  -V, --version             Print the version",
      "",
      "Options of extract, translate and clean:",
      "      --from-lang <LANG>    Language of the sources",
      "      --to <LANGS>          Other languages, with commas between them",
      "      --output-path <DIR>   Directory of the locale files",
      "",
      "Options of extract:",
      "      --rewrite             Replace texts in source files",
      "      --no-translate        Leave the other locale files unfilled",
      "      --no-clean            Keep keys that the sources no longer have",
      ""]

/-- The name and version of the program. -/
def versionText : String := "text-harvest 0.1.0\n"

/-- What is printed for a command line that is not carried out. -/
def message : UsageError → String
  | .help => helpText
  | .version => versionText
  | .unknownArgument => "error: unexpected argument found\n"
  | .invalidCommand => "error: unrecognized command\n"
  | .missingValue => "error: a value is required for an option but none was supplied\n"
  | .conflict => "error: an option cannot be used here or more than once\n"
  | .surplusValue => "error: unexpected value for an option\n"

/-- Whether the user asked for what is printed. -/
def isAnswer : UsageError → Bool
  | .help => true
  | .version => true
  | _ => false

end TextHarvest.UsageError
