import Mathlib.Algebra.GroupWithZero.Nat
import OpenCorvus.Foundation.TextSearch
import OpenCorvus.Foundation.Utf16Text

/-!
# Replacing a text by the edit tool

The exact matcher and the seven tolerant ones, each with the segments of the content that it proposes
for what is to be found, and the replacement that takes the first segment that will do.
-/

namespace OpenCorvus.Tool

open TextSearch Utf16

structure Yields where
  segments : List Units
  forever : Option Units

def Yields.ending (segments : List Units) : Yields := { segments := segments, forever := none }

/-- The text itself. -/
def simpleReplacer (_content find : Units) : Yields := .ending [find]

/-- `text.substring(start, end)` for `start ≤ end` -/
def substring (text : Units) (start stop : ℕ) : Units := (text.drop start).take (stop - start)

def popEmptyLine (lines : List Units) : List Units :=
  if lines.getLast? = some [] then lines.dropLast else lines

variable (content find : Units)

/-- The lines that are those of the text but for white space around each. -/
def lineTrimmedReplacer : Yields :=
  let originalLines := splitLines content
  let searchLines := popEmptyLine (splitLines find)
  .ending (((List.range (originalLines.length + 1 - searchLines.length)).filter fun i =>
    ((originalLines.drop i).take searchLines.length).map trim = searchLines.map trim).map fun i =>
      let matchStartIndex := ((originalLines.take i).map fun line => line.length + 1).sum
      let matched := (originalLines.drop i).take searchLines.length
      let matchEndIndex := matchStartIndex + (matched.map List.length).sum + (searchLines.length - 1)
      substring content matchStartIndex matchEndIndex)

/-- `text.replace(/\s+/g, " ")` -/
def collapseWhiteSpace : Units → Units
  | [] => []
  | unit :: rest =>
    if isWhiteSpace unit then
      match rest with
      | [] => [space]
      | next :: _ => if isWhiteSpace next then collapseWhiteSpace rest else space :: collapseWhiteSpace rest
    else unit :: collapseWhiteSpace rest

def normalizeWhitespace (text : Units) : Units := trim (collapseWhiteSpace text)

/-- `text.split(/\s+/)` for a text that does not begin or end with white space. -/
def splitWords (text : Units) : List Units := (collapseWhiteSpace text).splitOn space

def matchWords : List Units → Units → Option ℕ
  | [], _ => some 0
  | [word], text => if word <+: text then some word.length else none
  | word :: words, text =>
    if word <+: text then
      let rest := text.drop word.length
      let gap := (rest.takeWhile isWhiteSpace).length
      if gap = 0 then none
      else (matchWords words (rest.drop gap)).map fun length => word.length + gap + length
    else none

/-- The first place in a line where the words stand, with white space between them. -/
def findWords (words : List Units) (line : Units) : Option Units :=
  (List.range (line.length + 1)).findSome? fun i =>
    (matchWords words (line.drop i)).map fun length => (line.drop i).take length

/-- What a line has of the text when white space counts as one space. -/
def whitespaceNormalizedLine (find line : Units) : List Units :=
  let normalizedFind := normalizeWhitespace find
  if normalizeWhitespace line = normalizedFind then [line]
  else if includes normalizedFind (normalizeWhitespace line) then
    (findWords (splitWords (trim find)) line).toList
  else []

def whitespaceNormalizedReplacer : Yields :=
  let lines := splitLines content
  let findLines := splitLines find
  .ending ((lines.flatMap (whitespaceNormalizedLine find)) ++
    if 1 < findLines.length then
      ((blocks lines findLines.length).filter fun block =>
        normalizeWhitespace (joinLines block) = normalizeWhitespace find).map joinLines
    else [])

def removeIndentation (text : Units) : Units :=
  let lines := splitLines text
  let nonEmptyLines := lines.filter fun line => 0 < (trim line).length
  match (nonEmptyLines.map fun line => (line.takeWhile isWhiteSpace).length).min? with
  | none => text
  | some minIndent =>
    joinLines (lines.map fun line => if (trim line).length = 0 then line else line.drop minIndent)

def indentationFlexibleReplacer : Yields :=
  .ending (((blocks (splitLines content) (splitLines find).length).map joinLines).filter fun block =>
    removeIndentation block = removeIndentation find)

/-- `"\\"` -/
def backslash : UInt16 := 0x5C

/-- What an escaped character stands for. -/
def unescapeUnit (unit : UInt16) : Option UInt16 :=
  if unit = 0x6E then some newline
  else if unit = 0x74 then some 0x09
  else if unit = 0x72 then some 0x0D
  else if unit ∈ [0x27, 0x22, 0x60, backslash, newline, 0x24] then some unit
  else none

/-- Replace every escaped character by what it stands for. -/
def unescapeString : Units → Units
  | [] => []
  | [unit] => [unit]
  | unit :: next :: rest =>
    if unit = backslash then
      match unescapeUnit next with
      | some char => char :: unescapeString rest
      | none => unit :: unescapeString (next :: rest)
    else unit :: unescapeString (next :: rest)

def escapeNormalizedReplacer : Yields :=
  let unescapedFind := unescapeString find
  .ending ((if includes unescapedFind content then [unescapedFind] else []) ++
    ((blocks (splitLines content) (splitLines unescapedFind).length).map joinLines).filter fun block =>
      unescapeString block = unescapedFind)

/-- The text without white space around it, and blocks of lines that are it but for that. -/
def trimmedBoundaryReplacer : Yields :=
  let trimmedFind := trim find
  if trimmedFind = find then .ending []
  else .ending ((if includes trimmedFind content then [trimmedFind] else []) ++
    ((blocks (splitLines content) (splitLines find).length).map joinLines).filter fun block =>
      trim block = trimmedFind)

/-- At least half of the lines between the first and the last one that are not blank on both sides
agree. -/
def similarMiddle (blockLines findLines : List Units) : Bool :=
  let pairs := ((blockLines.map trim).zip (findLines.map trim)).tail.dropLast.filter fun pair =>
    0 < pair.1.length ∨ 0 < pair.2.length
  pairs.length ≤ 2 * pairs.countP fun pair => pair.1 = pair.2

/-- Blocks that begin and end with the first and the last line of a text of three lines or more. -/
def contextAwareReplacer : Yields :=
  let findLines := splitLines find
  if findLines.length < 3 then .ending []
  else
    let findLines := popEmptyLine findLines
    let contentLines := splitLines content
    let firstLine := trim (findLines.headD [])
    let lastLine := trim (findLines.getLastD [])
    .ending ((List.range contentLines.length).filterMap fun i =>
      if trim (contentLines.getD i []) ≠ firstLine then none
      else
        -- Only the first line from `i + 2` on that is the last one is tried.
        ((contentLines.drop (i + 2)).findIdx? fun line => trim line = lastLine).bind fun k =>
          let blockLines := (contentLines.drop i).take (k + 3)
          if blockLines.length = findLines.length ∧ similarMiddle blockLines findLines then
            some (joinLines blockLines)
          else none)

def multiOccurrenceReplacer : Yields :=
  if find = [] then { segments := [], forever := some find }
  else .ending ((matchesOf find content).map fun _ => find)

/-- The matchers, in the order in which they are asked. -/
def replacers : List Yields :=
  [simpleReplacer content find, lineTrimmedReplacer content find, whitespaceNormalizedReplacer content find,
    indentationFlexibleReplacer content find, escapeNormalizedReplacer content find,
    trimmedBoundaryReplacer content find, contextAwareReplacer content find,
    multiOccurrenceReplacer content find]

/-- `"$"` -/
def dollar : UInt16 := 0x24

/-- What a replacement text stands for at a match: `$$` for a dollar, `$&` for the match, and `` $` ``
and `$'` for the text before and after it. -/
def getSubstitution (matched content : Units) (position : ℕ) : Units → Units
  | [] => []
  | [unit] => [unit]
  | unit :: next :: rest =>
    if unit = dollar ∧ next = dollar then dollar :: getSubstitution matched content position rest
    else if unit = dollar ∧ next = 0x26 then matched ++ getSubstitution matched content position rest
    else if unit = dollar ∧ next = 0x60 then
      content.take position ++ getSubstitution matched content position rest
    else if unit = dollar ∧ next = 0x27 then
      content.drop (position + matched.length) ++ getSubstitution matched content position rest
    else unit :: getSubstitution matched content position (next :: rest)

/-- `content.replaceAll(search, newString)` -/
def replaceAllOf (content search newString : Units) : Units :=
  spliceMatches search content (fun i => getSubstitution search content i newString) 0 (matchesOf search content)

/-- What trying a segment leads to. -/
inductive Attempt where
  | absent
  | ambiguous
  | replaced (result : Units)
deriving DecidableEq

def Attempt.result : Attempt → Option Units
  | .replaced result => some result
  | _ => none

/-- Try a segment. -/
def attempt (content newString : Units) (replaceAll : Bool) (search : Units) : Attempt :=
  match indexOf search content with
  | none => .absent
  | some index =>
    if replaceAll then .replaced (replaceAllOf content search newString)
    else if lastIndexOf search content ≠ some index then .ambiguous
    else .replaced (content.take index ++ newString ++ content.drop (index + search.length))

/-- Try the segments of the matchers, one after the other; without an answer, the call never returns. -/
def attemptAll (content newString : Units) (replaceAll : Bool) : Bool → List Yields → Option (Except String Units)
  | notFound, [] =>
    some (.error (if notFound then "Could not find oldString in the file. It must match exactly, " ++
        "including whitespace, indentation, and line endings."
      else "Found multiple matches for oldString. Provide more surrounding context to make the match " ++
        "unique."))
  | notFound, yields :: rest =>
    match yields.segments.findSome? fun search => (attempt content newString replaceAll search).result with
    | some result => some (.ok result)
    | none =>
      let notFound := notFound ∧ yields.segments.all fun search =>
        attempt content newString replaceAll search = .absent
      match yields.forever with
      | none => attemptAll content newString replaceAll notFound rest
      | some search => (attempt content newString replaceAll search).result.map .ok

def replace (content oldString newString : Units) (replaceAll : Bool) : Option (Except String Units) :=
  if oldString = newString then
    some (.error "No changes to apply: oldString and newString are identical.")
  else attemptAll content newString replaceAll true (replacers content oldString)

def candidates : List Units :=
  (replacers content find).flatMap Yields.segments

end OpenCorvus.Tool
