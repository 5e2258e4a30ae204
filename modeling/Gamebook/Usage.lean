import Gamebook.Arguments

namespace Gamebook

namespace Topic

def version : String := "0.1.0"

def name : Topic → String
  | program => "inkloom"
  | check => "inkloom-check"
  | play => "inkloom-play"
  | help => "inkloom-help"

def versionText (t : Topic) : String := t.name ++ " " ++ version ++ "\n"

def lines : Topic → List String
  | program =>
    ["InkLoom: play and check branching stories",
      "",
      "Usage: inkloom <COMMAND>",
      "",
      "Commands:",
      "  check  Load a story and report structural problems",
      "  play   Play a story interactively on the terminal",
      "  help   Print this message or the help of the given subcommand(s)",
      "",
      "Options:",
      "  -h, --help     Print help",
      "  -V, --version  Print version"]
  | check =>
    ["Load a story and report structural problems",
      "",
      "Usage: inkloom check <STORY>",
      "",
      "Arguments:",
      "  <STORY>  Story document or package (.json)",
      "",
      "Options:",
      "  -h, --help     Print help",
      "  -V, --version  Print version"]
  | play =>
    ["Play a story interactively on the terminal",
      "",
      "Usage: inkloom play [OPTIONS] <STORY>",
      "",
      "Arguments:",
      "  <STORY>  Story document or package (.json)",
      "",
      "Options:",
      "  -s, --save <SAVE>          Save file: resumed from on start, rewritten after every step",
      "      --settings <SETTINGS>  Settings file (JSON, app settings format)",
      "      --seed <SEED>          RNG seed for reproducible runs",
      "      --strip-typewriter     Drop \x7btypewriter\x7d markers from the text",
      "  -h, --help                 Print help",
      "  -V, --version              Print version"]
  | help =>
    ["Print this message or the help of the given subcommand(s)",
      "",
      "Usage: inkloom help [COMMAND]...",
      "",
      "Arguments:",
      "  [COMMAND]...  Print help for the subcommand(s)"]

def usage (t : Topic) : String := "\n".intercalate t.lines ++ "\n"

end Topic

end Gamebook
