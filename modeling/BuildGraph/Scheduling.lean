import BuildGraph.Pass
import BuildGraph.Workspace.Query

/-! The foreign builds that are live and whose artefacts are missing have to be run, by commands in
which a shell takes each text as one word, and as nothing but itself. -/

namespace BuildGraph

namespace Text

/-- A character that means only itself to a shell. -/
def isPlain (c : Char) : Bool :=
  -- What is not ASCII is plain, since a shell gives no meaning to any of its bytes.
  c.isAlphanum || c ∈ [',', '.', '/', '_', '-'] || 0x80 ≤ c.toNat

/-- The quoted form of the rest of a text, with a quote already open or not. -/
def quoteFrom (opened : Bool) : List Char → List Char
  | [] => if opened then ['\''] else []
  | c :: rest =>
    if isPlain c then c :: quoteFrom opened rest
    -- A quote cannot stand inside quotes, so it is written outside of them.
    else if c = '\'' then (if opened then ['\''] else []) ++ '\\' :: '\'' :: quoteFrom false rest
    else (if opened then [] else ['\'']) ++ c :: quoteFrom true rest

/-- A text as one word of a shell. -/
def shellQuoted (text : String) : String :=
  -- The empty text must be quoted to be a word at all.
  if text = "" then "''" else String.ofList (quoteFrom false text.toList)

end Text

/-- The variable that tells a script where the project of its target is. -/
def directoryVariable : String :=
  -- Scripts are written against this name.
  "SRCROOT"

/-- The command that runs a script in the directory of a project. -/
def buildCommand (directory : Path) (script : String) : SideEffect :=
  -- The place occurs twice, and both times it is quoted; the script is not, since the shell is to
  -- read it.
  let place := Text.shellQuoted directory.text
  .command ["/bin/sh", "-c",
    "cd " ++ place ++ " && export " ++ directoryVariable ++ "=" ++ place ++ " && " ++ script]

/-- The command that builds what a target is missing, if that is not there. -/
def ForeignBuild.command? (b : ForeignBuild) (directory : Path) (probe : Probe) :
    Attempt (Option SideEffect) := do
  -- A relative output is looked for in the directory of the project.
  let present ← probe.ask (directory.join b.output.path)
  return if present then none else some (buildCommand directory b.script)

namespace Workspace

/-- The foreign builds that are neither pruned nor replaced, each with the path of its project. -/
def activeBuilds (w : Workspace) (l : Ledger) : List (Path × ForeignBuild) :=
  -- What is replaced is told by the ledger, and the flag and the ledger may differ.
  (w.foreignBuildTargets.toList.filter fun t => !t.target.pruned && !l.isReplaced t.id).filterMap
    fun t => t.target.foreignBuild.map (t.path, ·)

/-- The commands for a list of foreign builds, which are asked about one after another. -/
def commands (probe : Probe) : List (Path × ForeignBuild) → Attempt (List SideEffect)
  -- An error of an earlier question keeps all later ones from being asked.
  | [] => return []
  | (directory, build) :: rest => do
    let command ← build.command? directory probe
    return command.toList ++ (← commands probe rest)

/-- The commands that have to be run for a workspace. -/
def schedule (w : Workspace) (l : Ledger) (probe : Probe) : Attempt (List SideEffect) :=
  -- The workspace and the ledger are only looked at.
  commands probe (w.activeBuilds l)

end Workspace

end BuildGraph
