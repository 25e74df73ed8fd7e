import BuildGraph.Proofs.Shell.QuotedBytes
import BuildGraph.Proofs.Shell.Quoting
import BuildGraph.Scheduling

/-! The command line of a build leaves a shell with the directory of the project and the script. -/

namespace BuildGraph.Shell

open Text

/-- The variable that is set to a quoted text is one token with it, between blanks. -/
theorem readToken_assigned (text : String) (rest : List Char) :
    readToken (' ' :: ("SRCROOT=".toList ++ ((shellQuoted text).toList ++ ' ' :: rest))) =
      some (.word (unquoted "SRCROOT=" ++ signs text), ' ' :: rest) := by
  have starts : StartsWord ("SRCROOT=".toList ++ ((shellQuoted text).toList ++ ' ' :: rest)) :=
    ⟨'S', _, rfl, rfl, by decide, by decide⟩
  rw [readToken_blank]
  -- The quoted text goes on where the name of the variable ends.
  refine starts.readToken_eq ?_
  rw [readWord_unquoted (by decide), readWord_shellQuoted, prepend_prepend]

/-- A conjunction between blanks is one token. -/
theorem readToken_and (rest : List Char) :
    readToken (' ' :: '&' :: '&' :: ' ' :: rest) = some (.operator ['&', '&'], ' ' :: rest) :=
  -- The operator cannot be any longer, since a blank follows.
  rfl

/-- The command line of a build is read as six tokens, and what is left behind them is the script.
-/
theorem readTokens_commandLine (text script : String) :
    readTokens 6 ("cd " ++ shellQuoted text ++ " && export " ++ directoryVariable ++ "=" ++
        shellQuoted text ++ " && " ++ script).toList =
      some ([.word (unquoted "cd"), .word (signs text), .operator ['&', '&'],
        .word (unquoted "export"), .word (unquoted "SRCROOT=" ++ signs text),
        .operator ['&', '&']], ' ' :: script.toList) := by
  have goTo : ∀ rest, readToken ("cd".toList ++ ' ' :: rest) =
      some (.word (unquoted "cd"), ' ' :: rest) :=
    readToken_unquoted (by decide) ⟨'c', rfl, by decide⟩
  have tell : ∀ rest, readToken (' ' :: ("export".toList ++ ' ' :: rest)) =
      some (.word (unquoted "export"), ' ' :: rest) := fun rest =>
    (readToken_blank _).trans (readToken_unquoted (by decide) ⟨'e', rfl, by decide⟩ rest)
  have none : readTokens 0 (' ' :: script.toList) = some ([], ' ' :: script.toList) := rfl
  -- One token is read after another, each up to the blank that ends it.
  have read := readTokens_cons (goTo _) <| readTokens_cons (readToken_shellQuoted text _) <|
    readTokens_cons (readToken_and _) <| readTokens_cons (tell _) <|
    readTokens_cons (readToken_assigned text _) <| readTokens_cons (readToken_and _) none
  refine Eq.trans (congrArg (readTokens 6) ?_) read
  simp [String.toList_append, directoryVariable]

/-- A command has a shell run a script in a directory: the line that the shell is given goes to a
place, tells it to what comes behind, and goes on with the script as it is. -/
def Runs (directory : Path) (script : String) (command : SideEffect) : Prop :=
  -- The place has just the characters of the directory, and none of them is more than itself.
  ∃ line place, command = .command ["/bin/sh", "-c", line] ∧
    readTokens 6 line.toList = some ([.word (unquoted "cd"), .word place, .operator ['&', '&'],
      .word (unquoted "export"), .word (unquoted "SRCROOT=" ++ place), .operator ['&', '&']],
      ' ' :: script.toList) ∧
    place.map Sign.char = directory.text.toList ∧
    ∀ s ∈ place, s.quoted = false → isSpecial s.char = false

/-- The command of a build runs its script in the directory. -/
theorem runs_buildCommand (directory : Path) (script : String) :
    Runs directory script (buildCommand directory script) := by
  -- The place is read from what the directory is quoted as.
  refine ⟨_, signs directory.text, rfl, readTokens_commandLine directory.text script,
    map_char_written false _, fun s member bare => ?_⟩
  exact not_special_of_plain (plain_of_written member bare)

/-- Whatever the directory of a project and a script are, the command line of a build is read by a
shell as going to a place, and telling it to what comes behind, which is the script as it is. The
place has exactly the characters of the directory, and none of them means more than itself, unless
it is quoted. The bytes that the directory is quoted as are those of a text. -/
theorem buildCommand_is_read (directory : Path) (script : String) :
    ∃ line place, buildCommand directory script = .command ["/bin/sh", "-c", line] ∧
      readTokens 6 line.toList = some ([.word (unquoted "cd"), .word place, .operator ['&', '&'],
        .word (unquoted "export"), .word (unquoted "SRCROOT=" ++ place), .operator ['&', '&']],
        ' ' :: script.toList) ∧
      place.map Sign.char = directory.text.toList ∧
      (∀ s ∈ place, s.quoted = false → isSpecial s.char = false) ∧
      String.fromUTF8? (quotedBytes directory.text).toByteArray =
        some (shellQuoted directory.text) := by
  -- The line and the place are those by which the command runs the script.
  obtain ⟨line, place, given, read, named, plain⟩ := runs_buildCommand directory script
  exact ⟨line, place, given, read, named, plain, fromUTF8?_quotedBytes directory.text⟩

/-- Quotes are opened where they are needed, and closed in front of a quote that is part of the
text. -/
example : shellQuoted "/work/it's a lib" = "/work/it\\'s' a lib'" := by decide

end BuildGraph.Shell
