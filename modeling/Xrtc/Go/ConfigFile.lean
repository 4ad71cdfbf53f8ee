import Mathlib.Logic.Function.Basic
import Xrtc.Go.Xrpc
import Xrtc.Lib.Printf
import Xrtc.Lib.Strings
import Xrtc.Lib.Template

/-!
# The configuration store of the Go signaling server

The package `goconfig`: sections of keys with values, in maps beside lists that keep their order. A Go
map is a function; a list that is not in its map is `nil`. The locks of `BlockMode` are left out: one
goroutine has the store.
-/

namespace Xrtc.Go
open Lib Lib.Strings Lib.Printf

abbrev Str := List UInt8

/-! ## The strings package -/

/-- The white space of `unicode.IsSpace`. A string begins or ends with such a rune exactly if it begins
or ends with the bytes of its encoding. -/
def whiteSpace : Separators UInt8 where
  words := [[0x09], [0x0a], [0x0b], [0x0c], [0x0d], [0x20], [0xc2, 0x85], [0xc2, 0xa0], [0xe1, 0x9a, 0x80],
    [0xe2, 0x80, 0x80], [0xe2, 0x80, 0x81], [0xe2, 0x80, 0x82], [0xe2, 0x80, 0x83], [0xe2, 0x80, 0x84],
    [0xe2, 0x80, 0x85], [0xe2, 0x80, 0x86], [0xe2, 0x80, 0x87], [0xe2, 0x80, 0x88], [0xe2, 0x80, 0x89],
    [0xe2, 0x80, 0x8a], [0xe2, 0x80, 0xa8], [0xe2, 0x80, 0xa9], [0xe2, 0x80, 0xaf], [0xe2, 0x81, 0x9f],
    [0xe3, 0x80, 0x80]]
  filled := by decide
  prefixFree := by decide +kernel
  suffixFree := by decide +kernel

def trimSpace (s : Str) : Str := whiteSpace.trim s

def trimLeft (s cutset : Str) : Str := s.dropWhile (· ∈ cutset)

def trimRight (s cutset : Str) : Str := (s.reverse.dropWhile (· ∈ cutset)).reverse

/-! ## The store -/

def DEFAULT_SECTION : Str := text "DEFAULT"

def depthValues : Nat := 200

def lineBreak : Str := [0x0a]

inductive ParseError
  | sectionNotFound
  | keyNotFound
  | blankSectionName
  | couldNotParse
  deriving DecidableEq

structure GetError where
  reason : ParseError
  name : Str
  deriving DecidableEq

structure ConfigFile where
  fileNames : List Str
  data : Str → Option (Str → Option Str)
  sectionList : List Str
  keyList : Str → List Str
  sectionComments : Str → Option Str
  keyComments : Str → Option (Str → Option Str)

def newConfigFile (fileNames : List Str) : ConfigFile :=
  ⟨fileNames, fun _ => none, [], fun _ => [], fun _ => none, fun _ => none⟩

def orDefault (section_ : Str) : Str := if section_ = [] then DEFAULT_SECTION else section_

/-- `append(list[:i], list[i+1:]...)`, which panics if there is no index `i`. -/
def cutAt (list : List Str) (i : Nat) : Except Panic (List Str) :=
  if i + 1 ≤ list.length then .ok (list.take i ++ list.drop (i + 1)) else .error .indexOutOfRange

def isComment (line : Str) : Bool := line.head? = some 0x23 || line.head? = some 0x3b

def asComment (comments : Str) : Str := if isComment comments then comments else text "; " ++ comments

namespace ConfigFile

variable (c : ConfigFile)

def withSection (name : Str) : ConfigFile :=
  if (c.data name).isSome then c
  else
    { c with
      data := Function.update c.data name (some fun _ => none)
      sectionList := c.sectionList ++ [name] }

def setValue (name key value : Str) : ConfigFile × Bool :=
  let name := orDefault name
  if key = [] then (c, false)
  else
    let c := c.withSection name
    let keys := (c.data name).getD fun _ => none
    let ok := (keys key).isSome
    ({ c with
        data := Function.update c.data name (some (Function.update keys key (some value)))
        keyList :=
          if ok then c.keyList else Function.update c.keyList name (c.keyList name ++ [key]) }, !ok)

def setSectionComments (name comments : Str) : ConfigFile × Bool :=
  let name := orDefault name
  if comments = [] then ({ c with sectionComments := Function.update c.sectionComments name none }, true)
  else
    ({ c with sectionComments := Function.update c.sectionComments name (some (asComment comments)) },
      (c.sectionComments name).isNone)

def setKeyComments (name key comments : Str) : ConfigFile × Bool :=
  let name := orDefault name
  if comments = [] then
    match c.keyComments name with
    | none => (c, true)
    | some keys =>
        ({ c with keyComments := Function.update c.keyComments name (some (Function.update keys key none)) },
          true)
  else
    let keys := (c.keyComments name).getD fun _ => none
    ({ c with
        keyComments := Function.update c.keyComments name
          (some (Function.update keys key (some (asComment comments)))) },
      (keys key).isNone)

def deleteKey (name key : Str) : Except Panic (ConfigFile × Bool) :=
  let name := orDefault name
  match c.data name with
  | none => .ok (c, false)
  | some keys =>
      if (keys key).isSome then do
        let c := { c with data := Function.update c.data name (some (Function.update keys key none)) }
        let c := (c.setKeyComments name key []).1
        let list ← cutAt (c.keyList name) ((c.keyList name).idxOf key)
        .ok ({ c with keyList := Function.update c.keyList name list }, true)
      else .ok (c, false)

/-- The comments of the keys stay. -/
def deleteSection (name : Str) : Except Panic (ConfigFile × Bool) :=
  let name := orDefault name
  if (c.data name).isSome then do
    let c := { c with data := Function.update c.data name none }
    let c := (c.setSectionComments name []).1
    let list ← cutAt c.sectionList (c.sectionList.idxOf name)
    .ok ({ c with sectionList := list, keyList := Function.update c.keyList name [] }, true)
  else .ok (c, false)

def getSectionList : List Str := c.sectionList

def getKeyList (name : Str) : Option (List Str) :=
  let name := orDefault name
  if (c.data name).isSome then some ((c.keyList name).filter (· ≠ text " ")) else none

def getSection (name : Str) : Except GetError (Str → Option Str) :=
  let name := orDefault name
  match c.data name with
  | none => .error ⟨.sectionNotFound, name⟩
  | some keys => .ok (Function.update keys (text " ") none)

def getSectionComments (name : Str) : Str := (c.sectionComments (orDefault name)).getD []

def getKeyComments (name key : Str) : Str :=
  match c.keyComments (orDefault name) with
  | none => []
  | some keys => (keys key).getD []

end ConfigFile

/-! ## Values -/

def varPattern : Template.Marks UInt8 := ⟨0x25, 0x28, 0x29, 0x73, by decide⟩

/-- The name in a reference: both cuts remove any number of the two bytes. -/
def optionName (vr : Str) : Str := trimRight (trimLeft vr (text "%(")) (text ")s")

/-- `fuel` bounds the depth of the calls: `none` means that they go deeper. The error of a name that is
not in the DEFAULT section leaves the empty string, or what the same section has under the name. -/
def ConfigFile.getValue (c : ConfigFile) : (fuel : Nat) → (name key : Str) → Option (Except GetError Str)
  | 0, _, _ => none
  | fuel + 1, name, key =>
      let name := orDefault name
      match c.data name with
      | none => some (.error ⟨.sectionNotFound, name⟩)
      | some keys =>
          match keys key with
          | none =>
              match lastIndex (text ".") name with
              | some i => getValue c fuel (name.take i) key
              | none => some (.error ⟨.keyNotFound, key⟩)
          | some value =>
              let resolve (vr : Str) : Option Str :=
                (getValue c fuel DEFAULT_SECTION (optionName vr)).map fun
                  | .ok nvalue => nvalue
                  | .error _ => if name ≠ DEFAULT_SECTION then (keys (optionName vr)).getD [] else []
              (varPattern.expand resolve depthValues value).map .ok

end Xrtc.Go
