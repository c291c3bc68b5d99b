/-! The text that explains the program. -/

namespace IngestBench
namespace CommandLine

/-- The name of the program and its version. -/
def versionText : String := "tsbench 0.1.0\n"

/-- What the program is, its commands and its flags. -/
def helpText : String :=
  "\n".intercalate [
    "Time-series database load benchmark",
    "",
    "Usage: tsbench [OPTIONS] [COMMAND]",
    "",
    "Commands:",
    "  load      Load points into a target",
    "  generate  Write simulated points in a target's file format",
    "  targets   List the available targets",
    "  config    Configuration management commands",
    "  help      Print this message or the help of the given subcommand(s)",
    "",
    "Options:",
    "      --config <PATH>      Path to configuration file",
    "      --log-level <LEVEL>  Set the log level (trace, debug, info, warn, error)",
    "  -h, --help               Print help",
    "  -V, --version            Print version",
    ""]

end CommandLine
end IngestBench
