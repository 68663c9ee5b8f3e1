import ClassHost.Command.Arguments

/-!
# Help

What the program says about itself: a page for each thing that help can be about, and the version.
-/

namespace ClassHost

/-- A table on a help page: its heading, and rows of a term and its explanation. -/
structure HelpTable where
  heading : String
  rows : List (String × String)

/-- The table, with the explanations below each other. -/
def HelpTable.text (table : HelpTable) : String :=
  let width := (table.rows.map fun row => row.1.length).foldl max 0
  let lines := table.rows.map fun row =>
    "  " ++ row.1 ++ String.ofList (List.replicate (width - row.1.length) ' ') ++ "  " ++ row.2
  String.intercalate "\n" ((table.heading ++ ":") :: lines)

/-- A help page. -/
structure HelpPage where
  about : Option String
  usage : String
  tables : List HelpTable

/-- The page, with a blank line between its parts. -/
def HelpPage.text (page : HelpPage) : String :=
  String.intercalate "\n\n"
    (page.about.toList ++ ["Usage: " ++ page.usage] ++ page.tables.map HelpTable.text) ++ "\n"

/-- What a verb is for. -/
def Verb.about : Verb → String
  | .resolve => "Show how class names and array descriptors would be loaded"
  | .load => "Load classes through the boot class loader and describe them"

namespace HelpTopic

/-- What help is for. -/
def aboutHelp : String := "Print this message or the help of the given subcommand(s)"

/-- The options that are known everywhere, behind those of one command. -/
def options (own : List (String × String)) : HelpTable :=
  ⟨"Options", own ++
    [("    --plain", "Emit plain logs without colours or source locations"),
      ("-h, --help", "Print help"), ("-V, --version", "Print version")]⟩

/-- The page about a topic. Help itself takes no options. -/
def page : HelpTopic → HelpPage
  | program =>
    ⟨none, "kate [OPTIONS] <COMMAND>",
      [⟨"Commands", [("resolve", Verb.resolve.about), ("load", Verb.load.about),
        ("help", aboutHelp)]⟩, options []]⟩
  | verb .resolve =>
    ⟨some Verb.resolve.about, "kate resolve [OPTIONS] <DESCRIPTORS>...",
      [⟨"Arguments", [("<DESCRIPTORS>...", "The names or descriptors to resolve")]⟩, options []]⟩
  | verb .load =>
    ⟨some Verb.load.about, "kate load [OPTIONS] <CLASSES>...",
      [⟨"Arguments", [("<CLASSES>...", "The classes to load")]⟩,
        options [("    --cp <CLASSPATH>", "A list of paths to add to the classpath. " ++
          "Paths ending in .jar or .zip are read as archives")]]⟩
  | help =>
    ⟨some aboutHelp, "kate help [COMMAND]...",
      [⟨"Arguments", [("[COMMAND]...", "Print help for the subcommand(s)")]⟩]⟩

end HelpTopic

/-- The version, for the program or for one of its commands. -/
def versionText : Option Verb → String
  | none => "cli 0.1.0\n"
  | some verb => "cli-" ++ verb.text ++ " 0.1.0\n"

end ClassHost
