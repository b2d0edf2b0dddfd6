import Montage.CommandLine.Basic

/-!
# Help texts

The usage of the program and of its commands, and the version.
-/

namespace Montage.CommandLine.Help

/-- Lines, each with its end. -/
private def lines (texts : List String) : String := String.join (texts.map (· ++ "\n"))

def version : String := lines ["reel-render 0.1.0"]

def general : String := lines
  ["Render reel compositions with FFmpeg",
   "",
   "Usage: reel-render <COMMAND>",
   "",
   "Commands:",
   "  render       Render a single-track composition request",
   "  render-dual  Render two sources stacked vertically",
   "  schema       Print the JSON schema of a request type",
   "  help         Print this message or the help of the given subcommand(s)",
   "",
   "Options:",
   "  -h, --help     Print help",
   "  -V, --version  Print version"]

private def renderSummary : RequestKind → String
  | .composition => "Render a single-track composition request"
  | .splitScreen => "Render two sources stacked vertically"

/-- The usage of a command that renders. -/
def render (kind : RequestKind) : String := lines
  [renderSummary kind,
   "",
   "Usage: reel-render " ++ kind.command ++ " [OPTIONS] <JOB>",
   "",
   "Arguments:",
   "  <JOB>  Request JSON file",
   "",
   "Options:",
   "      --print-graph   Compile and print the filter graph without running FFmpeg",
   "      --keep-uploads  Leave uploaded files in place after the render",
   "  -h, --help          Print help"]

def schema : String := lines
  ["Print the JSON schema of a request type",
   "",
   "Usage: reel-render schema [KIND]",
   "",
   "Arguments:",
   "  [KIND]  [default: render] [possible values: render, render-dual]",
   "",
   "Options:",
   "  -h, --help  Print help"]

def help : String := lines
  ["Print this message or the help of the given subcommand(s)",
   "",
   "Usage: reel-render help [COMMAND]...",
   "",
   "Arguments:",
   "  [COMMAND]...  Print help for the subcommand(s)"]

/-- The help on a command, or on the program if none is named. -/
def on? : List String → Option String
  | [] => some general
  | ["help"] => some help
  | ["schema"] => some schema
  | [name] => render <$> RequestKind.ofCommand? name
  | _ => none

end Montage.CommandLine.Help
