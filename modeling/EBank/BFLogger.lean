import EBank.BFLoggerInstance
import EBank.Transition
import Mathlib.Data.List.Infix

/-!
The static logger over all threads: one instance for each of them, and log4j with its appenders and
files shared by all. A thread carries out what a call asks of log4j one synchronized method at a time,
in any interleaving with the others.
-/

namespace EBank

open Transition

namespace BFLoggerInstance

def getDirectory : String := "./logs"

-- a path keeps one of the slashes that follow each other
def normalize : List Char → List Char
  | [] => []
  | c :: tail => if c = '/' ∧ tail.head? = some '/' then normalize tail else c :: normalize tail

-- `new File(getDirectory().getPath(), getAppenderName() + ".log")`
def getLogFile (appenderName : String) : String :=
  let child := normalize (appenderName ++ ".log").toList
  if child.head? = some '/' then getDirectory ++ String.ofList child
  else getDirectory ++ "/" ++ String.ofList child

-- `replace(".log", "_env.log")`; fewer than four characters hold no occurrence
def replaceLog : List Char → List Char
  | c₁ :: c₂ :: c₃ :: c₄ :: rest =>
    if [c₁, c₂, c₃, c₄] = ".log".toList then "_env.log".toList ++ replaceLog rest
    else c₁ :: replaceLog (c₂ :: c₃ :: c₄ :: rest)
  | short => short

def envLogName (appenderName : String) : String := String.ofList (replaceLog (getLogFile appenderName).toList)

end BFLoggerInstance

namespace BFLogger

open BFLoggerInstance

inductive Appender where
  | file (path : String) (threshold : Level)
  | console (threshold : Level)
  deriving DecidableEq, Repr

def createEnvFileAppender (appenderName : String) : Appender := .file (envLogName appenderName) .environment

def createFileAppender (appenderName : String) : Appender := .file (getLogFile appenderName) .debug

-- wrapped in an asynchronous one, it writes to no file
def createConsoleAppender : Appender := .console .debug

/-- The synchronized methods of a log4j logger that an instance calls; a line is passed on to the
appenders of one category after the other. -/
inductive Effect where
  | removeAllAppenders
  | addAppender (appender : Appender)
  | callAppenders (category : String) (line : LogLine)
  deriving DecidableEq, Repr

structure Priority where
  DEBUG_INT : ℕ
  INFO_INT : ℕ
  WARN_INT : ℕ
  ERROR_INT : ℕ

namespace Priority

def ENVIRONMENT_INT (p : Priority) : ℕ := p.ERROR_INT + 10

def toInt (p : Priority) : Level → ℕ
  | .debug => p.DEBUG_INT
  | .info => p.INFO_INT
  | .warn => p.WARN_INT
  | .error => p.ERROR_INT
  | .environment => p.ENVIRONMENT_INT

variable {F : Type} [DecidableEq F]

def output (p : Priority) (file : String → F) (line : LogLine) (f : F) : Appender → List LogLine
  | .file path threshold => if p.toInt threshold ≤ p.toInt line.level ∧ file path = f then [line] else []
  | .console _ => []

end Priority

/-- What the logger uses of log4j and of the files below it, none of which is part of the source, as they
are documented: the order of the levels, one logger for each name whose appenders are those it was given,
its ancestors by the dots of the name, and files that are appended to. Which paths name one file is left
open. -/
structure Log4j (Λ F : Type) [DecidableEq F] extends Priority where
  file : String → F
  start : (F → List LogLine) → Λ
  content : Λ → F → List LogLine
  appenders : Λ → String → List Appender
  ancestors : String → List String
  apply : String → Λ → Effect → Λ
  truncate : String → Λ → Λ
  debug_lt_info : DEBUG_INT < INFO_INT
  info_lt_warn : INFO_INT < WARN_INT
  warn_lt_error : WARN_INT < ERROR_INT
  start_content : ∀ files, content (start files) = files
  start_appenders : ∀ files n, appenders (start files) n = []
  mem_ancestors_iff : ∀ n m, n ∈ ancestors m ↔ n.toList ++ ['.'] <+: m.toList
  removeAllAppenders_appenders : ∀ n l, appenders (apply n l .removeAllAppenders) n = []
  addAppender_appenders : ∀ n l appender,
    appenders (apply n l (.addAppender appender)) n = appenders l n ++ [appender]
  callAppenders_appenders : ∀ n l category line m,
    appenders (apply n l (.callAppenders category line)) m = appenders l m
  other_appenders : ∀ n l e m, m ≠ n → appenders (apply n l e) m = appenders l m
  removeAllAppenders_content : ∀ n l f, content (apply n l .removeAllAppenders) f = content l f
  addAppender_content : ∀ n l appender f, content (apply n l (.addAppender appender)) f = content l f
  callAppenders_content : ∀ n l category line f, content (apply n l (.callAppenders category line)) f =
    content l f ++ (appenders l category).flatMap (toPriority.output file line f)
  truncate_content : ∀ path l f, content (truncate path l) f = if file path = f then [] else content l f
  truncate_appenders : ∀ path l n, appenders (truncate path l) n = appenders l n

section InMemory
variable {F : Type} [DecidableEq F]

structure Memory (F : Type) where
  appenders : String → List Appender
  files : F → List LogLine

def Memory.apply (p : Priority) (file : String → F) (name : String) (memory : Memory F) : Effect → Memory F
  | .removeAllAppenders => { memory with appenders := Function.update memory.appenders name [] }
  | .addAppender appender =>
    { memory with appenders := Function.update memory.appenders name (memory.appenders name ++ [appender]) }
  | .callAppenders category line =>
    { memory with files := fun f =>
        memory.files f ++ (memory.appenders category).flatMap (p.output file line f) }

def inMemory (file : String → F) : Log4j (Memory F) F where
  DEBUG_INT := 10000
  INFO_INT := 20000
  WARN_INT := 30000
  ERROR_INT := 40000
  file := file
  start files := ⟨fun _ => [], files⟩
  content := Memory.files
  appenders := Memory.appenders
  ancestors name :=
    ((name.toList.inits.filter (fun l => l ++ ['.'] <+: name.toList)).map String.ofList).reverse
  apply := Memory.apply ⟨10000, 20000, 30000, 40000⟩ file
  truncate path memory := { memory with files := Function.update memory.files (file path) [] }
  debug_lt_info := by decide
  info_lt_warn := by decide
  warn_lt_error := by decide
  start_content _ := rfl
  start_appenders _ _ := rfl
  mem_ancestors_iff n m := by
    simp only [List.mem_reverse, List.mem_map, List.mem_filter, List.mem_inits, decide_eq_true_eq]
    constructor
    · rintro ⟨l, ⟨-, hl⟩, rfl⟩
      rwa [String.toList_ofList]
    · intro h
      exact ⟨n.toList, ⟨(List.prefix_append _ _).trans h, h⟩, String.ofList_toList⟩
  removeAllAppenders_appenders _ _ := by simp [Memory.apply]
  addAppender_appenders _ _ _ := by simp [Memory.apply]
  callAppenders_appenders _ _ _ _ _ := rfl
  other_appenders n memory e m h := by
    cases e with
    | callAppenders category line => rfl
    | _ => exact Function.update_of_ne h _ memory.appenders
  removeAllAppenders_content _ _ _ := rfl
  addAppender_content _ _ _ _ := rfl
  callAppenders_content _ _ _ _ _ := rfl
  truncate_content path memory f := by
    by_cases h : file path = f
    · rw [if_pos h, ← h]
      exact Function.update_self (file path) [] memory.files
    · rw [if_neg h]
      exact Function.update_of_ne (Ne.symm h) [] memory.files
  truncate_appenders _ _ _ := rfl

end InMemory

def setup (name : String) : List Effect :=
  [.removeAllAppenders, .addAppender (createEnvFileAppender name), .addAppender (createFileAppender name),
    .addAppender createConsoleAppender]

structure Local where
  log : BFLoggerInstance
  created : Bool
  pending : List Effect

def after (c : Call) (s : BFLoggerInstance) : BFLoggerInstance :=
  match c.perform s with
  | .ok _ s' => s'
  | .error _ s' => s'

def newLines (c : Call) (s : BFLoggerInstance) : List LogLine := (after c s).printed.drop s.printed.length

-- `getLogFile` asks for the appender name
def named (s : BFLoggerInstance) : BFLoggerInstance := { s with appenderName := some s.name }

def Local.named (l : Local) : Local := { l with log := BFLogger.named l.log }

def initialValue (threadName : String) : Local := ⟨fresh threadName, false, []⟩

section
variable {Λ F : Type} [DecidableEq F] (L : Log4j Λ F)

-- the root's appenders are left out
def categories (name : String) : List String := name :: L.ancestors name

def forcedLog (name : String) (line : LogLine) : List Effect :=
  (categories L name).map (fun category => .callAppenders category line)

-- every line is printed through `getLogger`, and a call that raises does so before it
def Local.call (name : String) (l : Local) (c : Call) : Local where
  log := after c l.log
  created := l.created || !(newLines c l.log).isEmpty
  pending := (if l.created || (newLines c l.log).isEmpty then [] else setup name) ++
    (newLines c l.log).flatMap (forcedLog L name)

end

variable {ι Λ F : Type} [DecidableEq ι] [DecidableEq F]

structure State (ι Λ : Type) where
  log4j : Λ
  loggers : ι → Option Local

def getLog (name : ι → String) (s : State ι Λ) (t : ι) : Local := (s.loggers t).getD (initialValue (name t))

def State.set (s : State ι Λ) (t : ι) (l : Local) : State ι Λ :=
  { s with loggers := Function.update s.loggers t (some l) }

inductive Action (ι : Type) where
  | call (t : ι) (c : Call)
  | effect (t : ι) (e : Effect)
  | startSeparateLog (t : ι)
  | dumpSeparateLog (t : ι) (content : List LogLine)

section
variable (L : Log4j Λ F) (name : ι → String)

def logFile (t : ι) : F := L.file (getLogFile (name t))

inductive Step : State ι Λ → Action ι → State ι Λ → Prop
  | call {s : State ι Λ} {t : ι} {c : Call} (idle : (getLog name s t).pending = []) :
      Step s (.call t c) (s.set t ((getLog name s t).call L (name t) c))
  | effect {s : State ι Λ} {t : ι} {e : Effect} {rest : List Effect}
      (next : (getLog name s t).pending = e :: rest) :
      Step s (.effect t e)
        { s.set t { getLog name s t with pending := rest } with log4j := L.apply (name t) s.log4j e }
  | startSeparateLog {s : State ι Λ} {t : ι} (idle : (getLog name s t).pending = []) :
      Step s (.startSeparateLog t)
        { s.set t (getLog name s t).named with log4j := L.truncate (getLogFile (name t)) s.log4j }
  | dumpSeparateLog {s : State ι Λ} {t : ι} (idle : (getLog name s t).pending = []) :
      Step s (.dumpSeparateLog t (L.content s.log4j (logFile L name t))) (s.set t (getLog name s t).named)

end

def initial (L : Log4j Λ F) (files : F → List LogLine) : State ι Λ := ⟨L.start files, fun _ => none⟩

def logged (L : Log4j Λ F) (name : String) (f : F) (line : LogLine) : List LogLine :=
  (if line.level = .environment ∧ L.file (envLogName name) = f then [line] else []) ++
    if L.file (getLogFile name) = f then [line] else []

def written (L : Log4j Λ F) (name : ι → String) (f : F) (content : List LogLine) : Action ι → List LogLine
  | .effect t (.callAppenders category line) =>
    if category = name t then content ++ logged L (name t) f line else content
  | .startSeparateLog t => if logFile L name t = f then [] else content
  | _ => content

end BFLogger

end EBank
