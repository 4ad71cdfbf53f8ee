import Xrtc.Go.ConfigFile
import Xrtc.Go.Log

/-!
# Reading and writing configuration files

What `bufio.Reader.ReadString('\n')` returns one after another are the pieces of the text between its
line breaks: all but the last one end in one, which `TrimSpace` removes, and the last one comes with
`io.EOF` or with the error of the reader.
-/

namespace Xrtc.Go
open Lib Lib.Strings Lib.Printf

def bom : Str := [0xef, 0xbb, 0xbf]

def backquote : Str := [0x60]
def doubleQuote : Str := [0x22]
def tripleQuote : Str := [0x22, 0x22, 0x22]

inductive LoadError
  | parse (reason : ParseError) (content : Str)
  | io (text : String)
  deriving DecidableEq

def indexAssign (s : Str) : Option Nat := s.findIdx? fun b => b == 0x3d || b == 0x3a

def keyQuote (line : Str) : Str :=
  if line.head? = some 0x22 then
    if 6 ≤ line.length ∧ line.take 3 = tripleQuote then tripleQuote else doubleQuote
  else if line.head? = some 0x60 then backquote
  else []

def parseKey (line : Str) : Option (Str × Nat) :=
  let quote := keyQuote line
  if quote ≠ [] then
    match index quote (line.drop quote.length) with
    | none => none
    | some pos =>
        match indexAssign (line.drop (pos + quote.length)) with
        | none | some 0 => none
        | some i => some ((line.drop quote.length).take pos, i + (pos + quote.length))
  else
    match indexAssign line with
    | none | some 0 => none
    | some i => some (trimSpace (line.take i), i)

def valueQuote (lineRight : Str) : Str :=
  if 2 ≤ lineRight.length ∧ lineRight.head? = some 0x60 then backquote
  else if 6 ≤ lineRight.length ∧ lineRight.take 3 = tripleQuote then tripleQuote
  else []

def parseValue (lineRight : Str) : Option Str :=
  let quote := valueQuote lineRight
  if quote ≠ [] then
    match lastIndex quote (lineRight.drop quote.length) with
    | none => none
    | some pos => some ((lineRight.drop quote.length).take pos)
  else some (trimSpace lineRight)

inductive Item
  | blank
  | comment (line : Str)
  | header (name : Str)
  | assign (key value : Str)
  deriving DecidableEq

def parseLine (current line : Str) : Except LoadError Item :=
  if line = [] then .ok .blank
  else if isComment line then .ok (.comment line)
  else if line.head? = some 0x5b ∧ line.getLast? = some 0x5d then
    .ok (.header (trimSpace (line.drop 1).dropLast))
  else if current = [] then .error (.parse .blankSectionName line)
  else
    match parseKey line with
    | none => .error (.parse .couldNotParse line)
    | some (key, i) =>
        match parseValue (trimSpace (line.drop (i + 1))) with
        | none => .error (.parse .couldNotParse line)
        | some value => .ok (.assign key value)

def autoKey (count : Nat) (key : Str) : Str := if key = text "-" then text "#" ++ itoa count else key

def autoCount (count : Nat) (key : Str) : Nat := if key = text "-" then count + 1 else count

structure Reading where
  config : ConfigFile
  count : Nat := 1
  current : Str := DEFAULT_SECTION
  comments : Str := []

namespace Reading

variable (r : Reading)

def item : Item → Reading
  | .blank => r
  | .comment line =>
      { r with comments := if r.comments = [] then line else r.comments ++ lineBreak ++ line }
  | .header name =>
      let config := if r.comments = [] then r.config else (r.config.setSectionComments name r.comments).1
      { config := (config.setValue name (text " ") (text " ")).1, count := 1, current := name, comments := [] }
  | .assign key value =>
      let name := autoKey r.count key
      let config := (r.config.setValue r.current name value).1
      let config := if r.comments = [] then config else (config.setKeyComments r.current name r.comments).1
      { r with config := config, count := autoCount r.count key, comments := [] }

/-- The store holds what came before the line with the error. -/
def lines : List Str → Reading → ConfigFile × Option LoadError
  | [], r => (r.config, none)
  | piece :: rest, r =>
      match parseLine r.current (trimSpace piece) with
      | .error err => (r.config, some err)
      | .ok item => lines rest (r.item item)

end Reading

namespace ConfigFile

/-- The reader gives `content` and then, if `fails`, an error that is not `io.EOF`. -/
def read (c : ConfigFile) (content : Str) (fails : Option String) : ConfigFile × Option LoadError :=
  let content := if bom.isPrefixOf content then content.drop 3 else content
  let pieces := content.splitOn 0x0a
  match fails with
  | none => Reading.lines pieces { config := c }
  | some err =>
      match Reading.lines pieces.dropLast { config := c } with
      | (c, none) => (c, some (.io err))
      | (c, some err) => (c, some err)

end ConfigFile

structure File where
  content : Str
  fails : Option String := none

abbrev Disk := Str → Except String File

def ConfigFile.loadFile (disk : Disk) (c : ConfigFile) (fileName : Str) : ConfigFile × Option LoadError :=
  match disk fileName with
  | .error err => (c, some (.io err))
  | .ok file => c.read file.content file.fails

def loadFiles (disk : Disk) (c : ConfigFile) : List Str → Except LoadError ConfigFile
  | [] => .ok c
  | name :: rest =>
      match c.loadFile disk name with
      | (_, some err) => .error err
      | (c, none) => loadFiles disk c rest

def loadConfigFile (disk : Disk) (fileName : Str) (moreFiles : List Str) : Except LoadError ConfigFile :=
  loadFiles disk (newConfigFile (fileName :: moreFiles)) (fileName :: moreFiles)

def loadFromReader (content : Str) (fails : Option String) : ConfigFile × Option LoadError :=
  (newConfigFile [[]]).read content fails

namespace ConfigFile

/-- `c.fileNames[0]` panics without a file name. -/
def reload (disk : Disk) (c : ConfigFile) : Except Panic (ConfigFile × Option LoadError) :=
  match c.fileNames with
  | [] => .error .indexOutOfRange
  | fileName :: moreFiles =>
      if moreFiles = [] ∧ fileName = [] then
        .ok (c, some (.io "file opened from in-memory data, use ReloadData to reload"))
      else
        match loadConfigFile disk fileName moreFiles with
        | .ok cfg => .ok (cfg, none)
        | .error err => .ok (c, some err)

def reloadData (c : ConfigFile) (content : Str) (fails : Option String) : ConfigFile × Option LoadError :=
  if c.fileNames.length ≠ 1 then
    (c, some (.io "Multiple files loaded, unable to mix in-memory and file data"))
  else
    match loadFromReader content fails with
    | (cfg, none) => (cfg, none)
    | (_, some err) => (c, some err)

def appendFiles (disk : Disk) (c : ConfigFile) (files : List Str) : Except Panic (ConfigFile × Option LoadError) :=
  if c.fileNames = [[]] then .ok (c, some (.io "Cannot append file data to in-memory data"))
  else { c with fileNames := c.fileNames ++ files }.reload disk

/-! ## Writing -/

/-- What stands for the key in the file; `keyName[0]` panics on an empty key. -/
def writtenKey (key : Str) : Except Panic Str :=
  match key with
  | [] => .error .indexOutOfRange
  | first :: _ =>
      let keyName := if first = 0x23 then text "-" else key
      if 0x3d ∈ keyName ∨ 0x3a ∈ keyName then
        if 0x60 ∈ keyName then
          if 0x22 ∈ keyName then .ok (tripleQuote ++ keyName ++ tripleQuote)
          else .ok (doubleQuote ++ keyName ++ doubleQuote)
        else .ok (backquote ++ keyName ++ backquote)
      else .ok keyName

def writtenValue (value : Str) : Str :=
  if 0x60 ∈ value then
    if 0x22 ∈ value then tripleQuote ++ value ++ tripleQuote else doubleQuote ++ value ++ doubleQuote
  else value

def saveComments (comments : Str) : Str := if comments = [] then [] else comments ++ lineBreak

def saveKey (c : ConfigFile) (name key : Str) : Except Panic Str :=
  if key = text " " then .ok []
  else do
    let keyName ← writtenKey key
    let value := ((c.data name).bind (· key)).getD []
    .ok (saveComments (c.getKeyComments name key) ++ keyName ++ text " = " ++ writtenValue value ++ lineBreak)

def saveSection (c : ConfigFile) (name : Str) : Except Panic Str := do
  let keys ← (c.keyList name).mapM (c.saveKey name)
  let title := if name = DEFAULT_SECTION then [] else text "[" ++ name ++ text "]" ++ lineBreak
  .ok (saveComments (c.getSectionComments name) ++ title ++ keys.flatten ++ lineBreak)

def saveConfigData (c : ConfigFile) : Except Panic Str := do
  let sections ← c.sectionList.mapM c.saveSection
  .ok sections.flatten

end ConfigFile

end Xrtc.Go
