import RenderLayout.Command.Line

/-!
What is said of the commands and their options.
-/

namespace RenderLayout.CommandLine

def configHelp : String := "  -c, --config <CONFIG>  Path to a JSON converter configuration\n"

def helpHelp : String := "  -h, --help             Print help\n"

def Level.manual : Level → String
  | .program =>
    "Convert SVGs to a render layout\n\nUsage: svg2layout [OPTIONS] <COMMAND>\n\nCommands:\n" ++
      "  convert  Convert one or more SVG files into a single layout file\n" ++
      "  fonts    List the font catalog\n" ++
      "  help     Print this message or the help of the given subcommand(s)\n\nOptions:\n" ++
      configHelp ++ helpHelp ++ "  -V, --version          Print version\n"
  | .convert =>
    "Convert one or more SVG files into a single layout file\n\n" ++
      "Usage: svg2layout convert [OPTIONS] --input <INPUT> --output <OUTPUT>\n\nOptions:\n" ++
      configHelp ++ "  -i, --input <INPUT>    SVG file to convert; repeat for more pages\n" ++
      "  -o, --output <OUTPUT>  Layout file to write\n" ++ helpHelp
  | .fonts =>
    "List the font catalog\n\nUsage: svg2layout fonts [OPTIONS]\n\nOptions:\n" ++
      configHelp ++ helpHelp
  | .help =>
    "Print this message or the help of the given subcommand(s)\n\n" ++
      "Usage: svg2layout help [COMMAND]...\n\nArguments:\n" ++
      "  [COMMAND]...  Print help for the subcommand(s)\n"

end RenderLayout.CommandLine
