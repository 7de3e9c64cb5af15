/-!
# Help

The texts that explain the command line.

## Main definitions

* `helpText`, `versionText`
-/

namespace Sproc.CommandLine

/-- The name and version of the command. -/
def versionText : String :=
  "tsql2go 0.4.0\n"

/-- How to call the command. -/
def usageLine : String :=
  "Usage: tsql2go [OPTIONS] <FILES>...\n"

/-- The arguments and options of the command. -/
def helpText : String :=
  "Lower parsed T-SQL stored procedures into Go functions\n\n" ++ usageLine ++
  "\nArguments:\n" ++
  "  <FILES>...  Procedure AST files (JSON)\n" ++
  "\nOptions:\n" ++
  "  -c, --config <CONFIG>    Configuration file (TOML) [env: TSQL2GO_CONFIG=]\n" ++
  "  -b, --backend <BACKEND>  Primary backend: sql, rpc or mock\n" ++
  "  -d, --dialect <DIALECT>  SQL dialect for query text\n" ++
  "  -p, --package <PACKAGE>  Go package clause\n" ++
  "      --log-hook           Emit log/slog calls\n" ++
  "  -o, --output <OUTPUT>    Output file path (stdout when omitted)\n" ++
  "  -f, --format <FORMAT>    Output format [default: text] [possible values: text, json]\n" ++
  "      --deny-warnings      Fail when any warning is reported\n" ++
  "  -v, --verbose            Verbose output\n" ++
  "  -h, --help               Print help\n" ++
  "  -V, --version            Print version\n" ++
  "\nEXAMPLES:\n" ++
  "    tsql2go usp_GetOrder.json\n" ++
  "    tsql2go procs/*.json --backend rpc -o gen/procedures.go\n" ++
  "    tsql2go usp_GetOrder.json --format json\n"

end Sproc.CommandLine
