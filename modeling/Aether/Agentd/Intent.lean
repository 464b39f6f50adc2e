import Aether.Algorithm.Stages
import Aether.Core.Json
import Aether.Core.Str

/-!
# Intents about files (`aether-agentd/src/intent.rs`)

Each kind of request is a stage.  The offsets are found in the text in lower case and cut the text
as it was given; a cut that panics makes the stage `none`.
-/

namespace Aether.Agentd

open Aether.Core
open Stages

inductive CapabilityId where
  | systemStatus
  | appStatus
  | appList
  | appLaunch
  | appClose
  | windowList
  | windowFocus
  | windowMinimize
  | windowMaximize
  | windowClose
  | windowRestore
  | contextGet
  | fileList
  | fileSearch
  | fileRead
  | fileCreate
  | fileWrite
  | fileRename
  | fileMove
  | fileDelete
  | systemInfo
  | systemResources
  | systemUptime
  deriving DecidableEq

structure Intent where
  capability : CapabilityId
  arguments : Json

def Intent.ofTexts (capability : CapabilityId) (arguments : List (String × Str)) : Intent :=
  ⟨capability, .obj (arguments.map fun a => (a.1, .str (String.ofList a.2)))⟩

def notAsciiAlphanumeric (c : Char) : Bool := !c.isAlphanum

def trimPunctuation (token : Str) : Str := Str.trimMatches (Str.anyOf "\"',.;") token

def firstToken (s : Str) : Str :=
  trimPunctuation ((Str.splitWhitespace (Str.trim s)).head?.getD [])

def lastToken (s : Str) : Str :=
  trimPunctuation ((Str.splitWhitespace (Str.trim s)).getLast?.getD [])

def quotedBy (text : Str) (quote : String) : Option (Option Str) :=
  match Str.find text quote with
  | none => some none
  | some start =>
    (Str.sliceFrom text (start + 1)).bind fun rest =>
      match Str.find rest quote with
      | none => some none
      | some last =>
        (Str.slice text (start + 1) (start + 1 + last)).map fun content =>
          if Str.trim content = [] then none else some content

def extractQuotedContent (text : Str) : Option (Option Str) :=
  firstAnswer [quotedBy text "'", quotedBy text "\""]

def filePath (token : Str) : Option Str :=
  let clean := Str.trimEndMatches (Str.anyOf "\"')")
    (Str.trimStartMatches (Str.anyOf "(\"'") (Str.trimEndMatches (Str.anyOf ",;:)(!?") token))
  let isPath := ('.' ∈ clean && 3 ≤ Str.len clean && clean.head? ≠ some '.' || '/' ∈ clean) &&
    clean.any Char.isAlphanum &&
    !Str.eqIgnoreAsciiCase clean "aether" && !Str.eqIgnoreAsciiCase clean "os"
  let isAbsolute := clean.head? = some '/' && 1 < Str.len clean
  if isPath || isAbsolute then
    let norm := Str.trimEndMatches (Str.anyOf ".,;") clean
    if norm = [] then none else some norm
  else none

def findFilePaths (text : Str) : List Str := (Str.splitWhitespace text).filterMap filePath

section Stages

variable (lower original : Str)

def listedFolder : Option Str :=
  match Str.find lower " in " with
  | none => some []
  | some idx =>
    (Str.sliceFrom original (idx + 4)).map fun after =>
      match (Str.splitWhitespace (Str.trim after)).head? with
      | none => []
      | some folder =>
        let clean := Str.trimMatches
          (fun c => !c.isAlphanum && c ≠ '/' && c ≠ '.' && c ≠ '_' && c ≠ '-') folder
        if clean ≠ [] && (Str.eqIgnoreAsciiCase clean "documents" ||
            Str.eqIgnoreAsciiCase clean "downloads" || Str.eqIgnoreAsciiCase clean "projects" ||
            Str.eqIgnoreAsciiCase clean "notes" || '/' ∈ clean) then clean
        else []

def listStage : Option (Option Intent) :=
  if (Str.contains lower "show" || Str.contains lower "list" || Str.contains lower "display") &&
      Str.contains lower "file" then
    (listedFolder lower original).map fun folder =>
      let path :=
        if Str.contains lower "show my files" || lower = "show my files.".toList ||
            Str.contains lower "show my files." then []
        else folder
      some (.ofTexts .fileList [("path", path)])
  else some none

def showMyFilesStage : Option (Option Intent) :=
  if Str.trim lower = "show my files".toList || Str.trim lower = "show my files.".toList then
    some (some (.ofTexts .fileList [("path", [])]))
  else some none

def candidate (words : List Str) (i : ℕ) : Str :=
  Str.trimMatches notAsciiAlphanumeric (words.getD i [])

def queryBefore (words : List Str) (i : ℕ) : Option Str :=
  if Str.isOneOf (words.getD i []) ["files", "file"] && 0 < i then
    let cand := candidate words (i - 1)
    let cand :=
      if Str.isOneOf cand ["my", "all", "the", "a", "an"] && 1 < i then candidate words (i - 2)
      else cand
    if cand ≠ [] && !Str.isOneOf cand ["find", "search", "all", "my"] then some cand else none
  else none

def queryAfter (words : List Str) (i : ℕ) : Option Str :=
  if Str.isOneOf (words.getD i []) ["find", "search"] && i + 1 < words.length then
    let cand := candidate words (i + 1)
    let cand :=
      if Str.isOneOf cand ["my", "all", "the"] && i + 2 < words.length then candidate words (i + 2)
      else cand
    if cand ≠ [] && !Str.isOneOf cand ["files", "file"] then some cand else none
  else none

def searchQuery : Str :=
  let words := Str.splitWhitespace lower
  let indices := List.range words.length
  let query := ((indices.findSome? (queryBefore words)).or
    (indices.findSome? (queryAfter words))).getD "all".toList
  if query = "markdown".toList then "md".toList else query

def searchStage : Option (Option Intent) :=
  if (Str.contains lower "find" || Str.contains lower "search") && Str.contains lower "file" then
    some (some (.ofTexts .fileSearch [("query", searchQuery lower)]))
  else some none

def projectStage : Option (Option Intent) :=
  if Str.contains lower "find my project files" then
    some (some (.ofTexts .fileSearch [("query", "project".toList)]))
  else some none

def readAfter : Option (Option Intent) :=
  match Str.find lower "read" with
  | none => some none
  | some idx =>
    (Str.sliceFrom original (idx + 4)).map fun after =>
      let token := firstToken after
      if token = [] then none else some (.ofTexts .fileRead [("path", token)])

def readStage : Option (Option Intent) :=
  if Str.contains lower "read" then
    match (findFilePaths original).head? with
    | some p => some (some (.ofTexts .fileRead [("path", p)]))
    | none => readAfter lower original
  else some none

def createAfter (marker : String) : Option (Option Intent) :=
  match Str.find lower marker with
  | none => some none
  | some idx =>
    (Str.sliceFrom original (idx + Str.len marker.toList)).map fun after =>
      let clean := firstToken after
      if clean = [] then none
      else some (.ofTexts .fileCreate [("path", clean), ("content", [])])

def createStage : Option (Option Intent) :=
  if Str.contains lower "create" && Str.contains lower "file" then
    match (findFilePaths original).head? with
    | some p =>
      (extractQuotedContent original).map fun content =>
        some (.ofTexts .fileCreate [("path", p), ("content", content.getD [])])
    | none => firstAnswer [createAfter lower original "called", createAfter lower original "named"]
  else some none

def unquotedContent (content : Str) : Option Str :=
  match Str.find lower "write" with
  | none => some content
  | some writeIdx =>
    match Str.find lower "into" with
    | none => some content
    | some intoIdx =>
      (Str.slice original (writeIdx + 5) intoIdx).map fun between =>
        let c := Str.trimMatches (Str.anyOf "\"' ") (Str.trim between)
        if c ≠ [] then c else content

def writeStage : Option (Option Intent) :=
  if Str.contains lower "write" then
    (extractQuotedContent original).bind fun quoted =>
      let content := quoted.getD []
      match (findFilePaths original).getLast? with
      | none => some none
      | some p =>
        let finalContent := if content = [] then unquotedContent lower original content
          else some content
        finalContent.map fun c => some (.ofTexts .fileWrite [("path", p), ("content", c)])
  else some none

def renameAround : Option (Option Intent) :=
  match Str.find lower "rename" with
  | none => some none
  | some renameIdx =>
    match Str.find lower " to " with
    | none => some none
    | some toIdx =>
      (Str.slice original (renameIdx + 6) toIdx).bind fun fromPart =>
        (Str.sliceFrom original (toIdx + 4)).map fun toPart =>
          let fromTok := lastToken fromPart
          let toTok := firstToken toPart
          if fromTok ≠ [] && toTok ≠ [] then
            some (.ofTexts .fileRename [("from", fromTok), ("to", toTok)])
          else none

def renameStage : Option (Option Intent) :=
  if Str.contains lower "rename" then
    match findFilePaths original with
    | source :: target :: _ => some (some (.ofTexts .fileRename [("from", source), ("to", target)]))
    | _ => renameAround lower original
  else some none

def moveTarget : Option Str :=
  match Str.find lower " into " with
  | some intoIdx => (Str.sliceFrom original (intoIdx + 6)).map firstToken
  | none =>
    match Str.rfind lower " to " with
    | some toIdx => (Str.sliceFrom original (toIdx + 4)).map firstToken
    | none => some []

def moveDest (source target : Str) : Str :=
  if '.' ∈ target then target
  else Str.trimEndMatches (· = '/') target ++ '/' :: source.rtakeWhile (· ≠ '/')

def moveIntent (source target : Str) : Intent :=
  .ofTexts .fileMove [("from", source), ("to", target)]

def movePronounStage (lastFile : Option Str) : Option (Option Intent) :=
  if Str.contains lower "this" && (Str.contains lower "note" || Str.contains lower "file") ||
      Str.contains lower " this " && Str.contains lower "move" then
    match lastFile with
    | none => some none
    | some last =>
      (moveTarget lower original).map fun target =>
        if target ≠ [] then some (moveIntent last (moveDest last target))
        else (findFilePaths original).head?.map fun p => moveIntent last (moveDest last p)
  else some none

def moveToStage : Option (Option Intent) :=
  if Str.contains lower " into " || Str.contains lower " to " then
    (moveTarget lower original).map fun target =>
      let source := (findFilePaths original).head?.getD []
      if source ≠ [] && target ≠ [] && source ≠ target then
        some (moveIntent source (moveDest source target))
      else none
  else some none

def movePathsStage : Option (Option Intent) :=
  match findFilePaths original with
  | source :: target :: _ => some (some (moveIntent source target))
  | _ => some none

def moveStage (lastFile : Option Str) : Option (Option Intent) :=
  if Str.contains lower "move" then
    firstAnswer [movePronounStage lower original lastFile, moveToStage lower original,
      movePathsStage original]
  else some none

def deleteStage : Option (Option Intent) :=
  if Str.contains lower "delete" then
    some (some (.ofTexts .fileDelete [("path", (findFilePaths original).head?.getD "*".toList)]))
  else some none

def stagesBeforeWrite : List (Option (Option Intent)) :=
  [listStage lower original, showMyFilesStage lower, searchStage lower, projectStage lower,
    readStage lower original, createStage lower original]

def parseFileIntent (lastFile : Option Str) : Option (Option Intent) :=
  firstAnswer (stagesBeforeWrite lower original ++
    [writeStage lower original, renameStage lower original, moveStage lower original lastFile,
      deleteStage lower original])

end Stages

/-!
## Intents of a text (`aether-agentd/src/intent.rs`, `context.rs`)

`parse_intents_with_file`: a question about windows, a request about files, a question about the
system, and otherwise one or more actions for every verb of the text.  A panic is `none`.
-/

structure WindowSnapshot where
  appId : Str
  focused : Bool

structure SystemContext where
  activeWindow : Option Str
  windows : List WindowSnapshot

namespace SystemContext

def empty : SystemContext := ⟨none, []⟩

def focusedApp (ctx : SystemContext) : Option Str :=
  (ctx.windows.find? (·.focused)).map (·.appId)

end SystemContext

def isFiller (w : Str) : Bool := Str.isOneOf w ["THE", "MY", "A", "AN", "THIS", "THAT"]

def isConj (w : Str) : Bool := Str.isOneOf w ["AND", "THEN", "PLUS", ",", "&", ";"]

def isVerb (w : Str) : Bool :=
  Str.isOneOf w ["OPEN", "LAUNCH", "START", "RUN", "CLOSE", "FOCUS", "BRING", "SHOW", "MINIMIZE",
    "HIDE", "MAXIMIZE", "MAXIMISE", "FULLSCREEN", "EXPAND", "RESTORE", "FRONT", "BACK"]

def beginsClause (w : Str) : Bool :=
  isVerb w && !Str.isOneOf w ["AND", "THEN"] &&
    Str.isOneOf w ["OPEN", "LAUNCH", "START", "CLOSE", "MINIMIZE", "HIDE", "MAXIMIZE", "MAXIMISE",
      "BRING", "FOCUS"]

def isPhraseWord (w : Str) : Bool :=
  Str.isOneOf w ["TO", "THE", "FRONT", "BACK", "FORE", "GROUND", "UP", "IT", "THAT", "THIS", "THEM"]

def isIgnored (norm : Str) : Bool :=
  Str.isOneOf norm ["whats", "what", "is", "are", "open", "app", "apps", "window", "windows",
    "please", "bring", "minimize", "maximize", "close", "focus", "me", "installed", "show", "are",
    "the"]

def normalizeToken (raw : Str) : Option Str :=
  let t := Str.toAsciiLowercase (Str.trimStartMatches notAsciiAlphanumeric
    (Str.trimEndMatches notAsciiAlphanumeric raw))
  (if t = [] then none else some t).filter fun s =>
    s.all fun c => c.isLower || c.isDigit || c = '-' || c = '_'

def collectFrom (targets : List Str) : List Str → List Str
  | [] => targets
  | w :: words =>
    if beginsClause w then targets
    else if isConj w || isFiller w || isPhraseWord w then collectFrom targets words
    else
      match normalizeToken w with
      | none => if 4 ≤ targets.length then targets else collectFrom targets words
      | some norm =>
        if isIgnored norm then collectFrom targets words
        else if 4 ≤ (targets ++ [norm]).length then targets ++ [norm]
        else collectFrom (targets ++ [norm]) words

def collectTargets (words : List Str) (verbIdx : ℕ) : List Str :=
  collectFrom [] (words.drop (verbIdx + 1))

def cleanedWords (upper : Str) : List Str :=
  ((Str.splitWhitespace upper).map (Str.trimMatches notAsciiAlphanumeric)).filter (· ≠ [])

def normWords (upper : Str) : List Str :=
  Str.splitWhitespace ((upper.filter (!Str.anyOf "'" ·)).map fun c =>
    if Str.anyOf "?.," c then ' ' else c)

def isWindowListQuery (upper : Str) : Bool :=
  let joined := [' '].intercalate (normWords upper)
  (Str.contains joined "WHAT" && Str.contains joined "OPEN") ||
    Str.contains joined "WHATS OPEN" ||
    Str.contains joined "WHAT IS OPEN" ||
    (Str.contains joined "WHICH" && Str.contains joined "WINDOW") ||
    (Str.contains joined "LIST" && Str.contains joined "WINDOW") ||
    (Str.contains joined "SHOW" && Str.contains joined "WINDOW" && Str.contains joined "OPEN") ||
    joined = "WHAT IS OPEN".toList ||
    joined = "WHATS OPEN".toList

def asksByWords (upper : Str) : Bool :=
  isWindowListQuery upper &&
    (normWords upper).any (Str.isOneOf · ["WHAT", "WHICH", "LIST"])

def asksWhatIsOpen (upper : Str) : Bool :=
  Str.contains upper "WHAT" && Str.contains upper "OPEN?" ||
    Str.trim upper = "WHAT'S OPEN?".toList || Str.trim upper = "WHATS OPEN".toList

def asksByPhrase (lower : Str) : Bool :=
  let lowerTrim := Str.replaceDoubleBlanks
    (Str.trim (lower.filter fun c => c.isAlpha || Str.isAsciiWhitespace c))
  Str.isOneOf lowerTrim ["whats open", "what is open", "what is open ", "which windows are open",
    "list windows", "show open windows", "what windows are open"]

def asksShortly (lower : Str) : Bool :=
  (Str.contains lower "what's open" || Str.contains lower "whats open" ||
    (Str.contains lower "what" && Str.contains lower "open" &&
      (Str.splitWhitespace lower).length ≤ 4 && !Str.contains lower "calculator" &&
      !Str.contains lower "notes" && !Str.contains lower "files")) &&
  (!Str.contains lower "calculator" && !Str.contains lower "notes" &&
    !Str.contains lower "files" && !Str.contains lower "open calculator")

def asksWindowList (upper lower : Str) : Bool :=
  asksByWords upper || asksWhatIsOpen upper || asksByPhrase lower || asksShortly lower

def parseSystemIntent (lower : Str) : Option Intent :=
  let has := Str.contains lower
  if (has "ram" || has "memory" || (has "resources" && has "system")) &&
      (has "how much" || has "available" || has "memory" || has "ram" || has "resources") then
    some ⟨.systemResources, .obj []⟩
  else if has "uptime" || (has "how long" && has "running") || has "been running" then
    some ⟨.systemUptime, .obj []⟩
  else if has "system info" || has "os version" || has "system information" ||
      (has "system" && has "info") then
    some ⟨.systemInfo, .obj []⟩
  else if has "ram" && has "available" then some ⟨.systemResources, .obj []⟩
  else if has "how long has aether been running" then some ⟨.systemUptime, .obj []⟩
  else none

def notAsciiAlphabetic (c : Char) : Bool := !c.isAlpha

def hasPronoun (lower : Str) : Bool :=
  (Str.splitWhitespace lower).any (fun w =>
    Str.isOneOf (Str.trimMatches notAsciiAlphabetic w) ["it", "that", "this", "them"]) ||
  Str.contains lower " it " || Str.contains lower " it." ||
  Str.endsWith (Str.trimEndMatches notAsciiAlphabetic lower) " it"

def appIntent (capability : CapabilityId) (app : Str) : Intent :=
  .ofTexts capability [("app", app)]

def orPronoun (pronoun : Bool) (targets : List Str) (referent : Option Str) : List Str :=
  if targets = [] && pronoun then referent.toList else targets

def closeIntents (upper : Str) (pronoun : Bool) (targets : List Str) (idx : ℕ)
    (referent : Option Str) : Option (List Intent) :=
  if targets = [] && pronoun then some (referent.toList.map (appIntent .appClose))
  else targets.mapM fun t =>
    (Str.sliceFrom upper idx).map fun rest =>
      appIntent (if Str.contains rest "WINDOW" then .windowClose else .appClose) t

section Verbs

variable (upper : Str) (words : List Str) (pronoun : Bool) (ctx : SystemContext)
  (lastApp : Option Str)

def intentsAt (idx : ℕ) : Option (List Intent) :=
  let verb := words.getD idx []
  let targets := collectTargets words idx
  let focused := lastApp.or ctx.focusedApp
  if verb = "CLOSE".toList then closeIntents upper pronoun targets idx focused
  else if Str.isOneOf verb ["OPEN", "LAUNCH", "START", "RUN"] then
    some ((orPronoun pronoun targets lastApp).map (appIntent .appLaunch))
  else if Str.isOneOf verb ["BRING", "FOCUS", "SHOW"] then
    let referent := ((lastApp.or ctx.activeWindow).or ctx.focusedApp).map Str.toAsciiLowercase
    some ((orPronoun pronoun targets referent).map (appIntent .windowFocus))
  else if Str.isOneOf verb ["MINIMIZE", "HIDE"] then
    some ((orPronoun pronoun targets focused).map (appIntent .windowMinimize))
  else if Str.isOneOf verb ["MAXIMIZE", "MAXIMISE", "EXPAND", "FULLSCREEN"] then
    some ((orPronoun pronoun targets focused).map (appIntent .windowMaximize))
  else if verb = "RESTORE".toList then
    some ((orPronoun pronoun targets focused).map (appIntent .windowRestore))
  else some []

def verbIntents : Option (List Intent) :=
  ((List.range words.length).mapM (intentsAt upper words pronoun ctx lastApp)).map List.flatten

end Verbs

def runningTarget (words : List Str) : Option Str :=
  (words.findIdx? (Str.contains · "RUNNING")).bind fun ri =>
    (((words.take ri).reverse.find? (!Str.isOneOf · ["IS", "THE", "MY", "STILL"])).map fun w =>
      Str.toAsciiLowercase (Str.trimEndMatches notAsciiAlphanumeric w)).filter (· ≠ [])

def fallbackIntents (upper : Str) (words : List Str) : List Intent :=
  if words.any (Str.isOneOf · ["APPS"]) || Str.contains upper "APPLICATIONS" then
    [⟨.appList, .obj []⟩]
  else if Str.contains upper "RUNNING" then
    [⟨.appStatus, .obj [("app",
      ((runningTarget words).map fun app => Json.str (String.ofList app)).getD .null)]⟩]
  else if Str.contains upper "STATUS" || Str.contains upper "HEALTH" then
    [⟨.systemStatus, .obj []⟩]
  else []

def actionIntents (upper lower : Str) (ctx : SystemContext) (lastApp : Option Str) :
    Option (List Intent) :=
  let words := cleanedWords upper
  (verbIntents upper words (hasPronoun lower) ctx lastApp).map fun intents =>
    if intents.isEmpty then fallbackIntents upper words else intents

def parseUpper (upper text : Str) (ctx : SystemContext) (lastApp lastFile : Option Str) :
    Option (List Intent) :=
  let lower := Str.toAsciiLowercase text
  if cleanedWords upper = [] then some []
  else if asksWindowList upper lower then some [⟨.windowList, .obj []⟩]
  else
    match parseFileIntent lower text lastFile with
    | none => none
    | some (some intent) => some [intent]
    | some none =>
      match parseSystemIntent lower with
      | some intent => some [intent]
      | none => actionIntents upper lower ctx lastApp

def parseIntentsWithFile (table : UpperTable) (text : Str) (ctx : SystemContext)
    (lastApp lastFile : Option Str) : Option (List Intent) :=
  parseUpper (Str.toUppercase table text) text ctx lastApp lastFile

end Aether.Agentd
