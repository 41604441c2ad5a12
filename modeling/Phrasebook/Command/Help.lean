import Phrasebook.Text.Basic

/-!
# Help

The texts that the command prints on request.
-/

namespace Phrasebook.Command

/-- The text of some lines. -/
def unlines (lines : List String) : Text := lines.flatMap fun line => line.toList ++ ['\n']

/-- The version of the command. -/
def versionText : Text := unlines ["icu-ts 0.1.0"]

/-- Help in short, one line for each option. -/
def shortHelp : Text :=
  unlines [
    "Compile ICU-style translation files into typed TypeScript modules",
    "",
    "Usage: icu-ts [OPTIONS]",
    "",
    "Options:",
    "  -d, --dir <DIR>                      Directory containing the `<lang>.json` translation files [default: .]",
    "  -l, --lang <LANGS>                   Language to compile (repeatable; defaults to every JSON file in the directory)",
    "  -o, --out-dir <OUT_DIR>              Directory the generated modules are written to (defaults to the translation directory)",
    "  -c, --config <CONFIG>                Path to the configuration file (defaults to `<dir>/icu-ts.json`)",
    "      --import-prefix <IMPORT_PREFIX>  Import prefix the provider module resolves language modules under",
    "      --no-provider                    Do not generate the React provider module",
    "      --check                          Compile and report without writing any file",
    "      --strict                         Fail on pattern warnings",
    "      --output <OUTPUT>                Output format [default: human] [possible values: human, json, machine]",
    "  -w, --watch                          Run in watch mode",
    "      --preserve-watch-output          Preserve watch output (don't clear screen)",
    "      --timings                        Show timing information",
    "  -v, --verbose                        Verbose output",
    "  -h, --help                           Print help (see more with '--help')",
    "  -V, --version                        Print version"
  ]

/-- Help in full. -/
def longHelp : Text :=
  unlines [
    "Compile ICU-style translation files into typed TypeScript modules",
    "",
    "Usage: icu-ts [OPTIONS]",
    "",
    "Options:",
    "  -d, --dir <DIR>",
    "          Directory containing the `<lang>.json` translation files",
    "          ",
    "          [default: .]",
    "",
    "  -l, --lang <LANGS>",
    "          Language to compile (repeatable; defaults to every JSON file in the directory)",
    "",
    "  -o, --out-dir <OUT_DIR>",
    "          Directory the generated modules are written to (defaults to the translation directory)",
    "",
    "  -c, --config <CONFIG>",
    "          Path to the configuration file (defaults to `<dir>/icu-ts.json`)",
    "",
    "      --import-prefix <IMPORT_PREFIX>",
    "          Import prefix the provider module resolves language modules under",
    "",
    "      --no-provider",
    "          Do not generate the React provider module",
    "",
    "      --check",
    "          Compile and report without writing any file",
    "",
    "      --strict",
    "          Fail on pattern warnings",
    "",
    "      --output <OUTPUT>",
    "          Output format",
    "",
    "          Possible values:",
    "          - human:   Human-readable output",
    "          - json:    One JSON object per line",
    "          - machine: Colon-separated output",
    "          ",
    "          [default: human]",
    "",
    "  -w, --watch",
    "          Run in watch mode",
    "",
    "      --preserve-watch-output",
    "          Preserve watch output (don't clear screen)",
    "",
    "      --timings",
    "          Show timing information",
    "",
    "  -v, --verbose",
    "          Verbose output",
    "",
    "  -h, --help",
    "          Print help (see a summary with '-h')",
    "",
    "  -V, --version",
    "          Print version"
  ]

end Phrasebook.Command
