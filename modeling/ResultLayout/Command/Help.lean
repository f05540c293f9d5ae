/-!
# Help texts of the command line
-/
namespace ResultLayout.Help

def lines (texts : List String) : String := String.join (texts.map (· ++ "\n"))

def version : String := "graphql-codegen 0.0.1\n"

/-- What a run says whose arguments are out of order. -/
def hint : String := "For more information, try '--help'.\n"

def overview : List String := [
  "Compiles GraphQL operation IR (as emitted by the front-end) into language-agnostic result-type " ++
    "descriptors",
  "",
  "Usage: graphql-codegen [OPTIONS] [COMMAND]",
  "",
  "Commands:",
  "  compile  Compile every operation in the given IR files and print the resulting descriptors as " ++
    "JSON",
  "  help     Print this message or the help of the given subcommand(s)",
  "",
  "Options:"]

/-- The help that a run without a command prints. -/
def long : String := lines (overview ++ [
  "  -v, --verbose",
  "          Log at DEBUG level (overrides the LOG_LEVEL environment variable).",
  "",
  "  -h, --help",
  "          Print help",
  "",
  "  -V, --version",
  "          Print version"])

/-- The help that is asked for by an option. -/
def short : String := lines (overview ++ [
  "  -v, --verbose  Log at DEBUG level (overrides the LOG_LEVEL environment variable).",
  "  -h, --help     Print help",
  "  -V, --version  Print version"])

/-- The help of the `compile` command. -/
def compile : String := lines [
  "Compile every operation in the given IR files and print the resulting descriptors as JSON",
  "",
  "Usage: graphql-codegen compile [OPTIONS] <FILE_OR_DIR_PATHS>...",
  "",
  "Arguments:",
  "  <FILE_OR_DIR_PATHS>...  Paths to one or more IR files or directories containing IR files to " ++
    "compile.",
  "",
  "Options:",
  "      --config <CONFIG>",
  "          Path to a JSON file of code generation options. Flags passed on the command line take " ++
    "precedence over the file.",
  "      --ir-file-exts <IR_FILE_EXTS>",
  "          Set of file extensions to filter to when searching for IR files within a directory. " ++
    "[default: json]",
  "      --model-builder",
  "          Tag every operation's `Data` type for builder synthesis.",
  "      --semantic-naming <SEMANTIC_NAMING>",
  "          Append the operation kind (`Query`, `Mutation`, `Subscription`) to operation names. " ++
    "[possible values: true, false]",
  "  -h, --help",
  "          Print help"]

/-- The help of the `help` command. -/
def help : String := lines [
  "Print this message or the help of the given subcommand(s)",
  "",
  "Usage: graphql-codegen help [COMMAND]...",
  "",
  "Arguments:",
  "  [COMMAND]...  Print help for the subcommand(s)"]

end ResultLayout.Help
