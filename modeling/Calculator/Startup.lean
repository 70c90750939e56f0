import Calculator.Settings.Basic

/-!
# Starting the program

* `requiredFiles` : the files without which the program does not start.
* `isThere` : a path is that of a file, or of a folder that holds one.
* `missingFiles`, `fileReport` : the files that are not there, and the lines that say so.
* `logLevel` : how much is logged.
-/

namespace Calculator.Startup

set_option autoImplicit false

/-- The files without which the program does not start, by folder and name. -/
def requiredFiles : List (Text × Text) :=
  let modules := "Modules/".toList
  [(modules, "UI.py".toList), (modules, "MathEngine.py".toList), (modules, "ScientificEngine.py".toList),
    (modules, "Expression.py".toList), (modules, "Session.py".toList), (modules, "config_manager.py".toList),
    ([], "config.json".toList), ([], "ui_strings.json".toList)]

/-- The path is one of the files, or a folder on the way to one. -/
def isThere (files : List Text) (path : Text) : Bool :=
  files.any fun f => f == path || (Text.afterPrefix? (path ++ ['/']) f).isSome

def missingFiles (files : List Text) : List Text :=
  (requiredFiles.filter fun f => !isThere files (f.1 ++ f.2)).map Prod.snd

def fileReport : List Text → List Text
  | [] => []
  | missing =>
    "Error 1: The following files are missing or in the wrong location:".toList ::
      missing.map fun name => "- ".toList ++ name

/-- The status of a program that cannot start; `none` if it can. -/
def exitCode (missing : List Text) : Option Int := if missing.isEmpty then none else some 1

inductive LogLevel where
  | debug
  | info
deriving DecidableEq, Repr

/-- The level of the log: all of it where the settings ask for debugging. -/
def logLevel (s : Settings) : LogLevel := if (s.get? Settings.debugKey).any Json.holds then .debug else .info

end Calculator.Startup
