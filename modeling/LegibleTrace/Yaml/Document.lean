import LegibleTrace.Yaml.Node
import LegibleTrace.Yaml.Scalar

/-! Documents of nested mappings and sequences, written by indentation or in brackets. A key
is a scalar that stands with its colon on one line. The entries of a block all begin in one
column; a sequence under a key may begin in the column of the key. -/
namespace LegibleTrace.Yaml

/-- A key and its colon are at most so far apart. -/
def maxKeyLength : Nat := 1024

/-- A scalar at the cursor; the line it begins on is that of the cursor. -/
def scalar? (place : Place) (indent : Int) (cursor : Cursor) : Option (Node × Cursor) :=
  let steps := cursor.rest.length + 1
  match cursor.rest with
  | [] => none
  | c :: _ =>
    if c = '\'' ∨ c = '"' then
      (quotedFrom c steps (cursor.skip 1)).map fun (content, next) => (.quoted content, next)
    else if startsPlain place cursor.rest then
      let (content, next) := plainFrom place indent steps cursor
      some (.plain content, next)
    else none

/-- Whether the scalar between two cursors may be a key. -/
def isKey (start finish : Cursor) : Bool :=
  start.line = finish.line && finish.column - start.column ≤ maxKeyLength

mutual

def flowNode? : Nat → Cursor → Option (Node × Cursor)
  | 0, _ => none
  | steps + 1, cursor =>
    if cursor.atEnd then none else
    match cursor.rest with
    | '[' :: _ =>
      (flowItems? steps (cursor.skip 1).settle).map fun (items, next) => (.list items, next)
    | '\x7b' :: _ =>
      (flowEntries? steps (cursor.skip 1).settle).map fun (entries, next) =>
        (.mapping entries, next)
    | _ => scalar? .flow (-1) cursor

/-- A node inside brackets with the value behind its colon, if there is one. -/
def flowPair? : Nat → Cursor → Option ((Node × Option Node) × Cursor)
  | 0, _ => none
  | steps + 1, cursor => do
    let (key, next) ← flowNode? steps cursor
    let next := next.settle
    if next.rest.head? = some ':' ∧ isKey cursor next ∧ key.isScalar then
      let behind := (next.skip 1).settle
      if behind.rest.head?.any (fun c => c = ',' || c = ']' || c = '\x7d') then
        return ((key, some .empty), behind)
      else
        let (value, last) ← flowNode? steps behind
        return ((key, some value), last.settle)
    else return ((key, none), next)

def flowItems? : Nat → Cursor → Option (List Node × Cursor)
  | 0, _ => none
  | steps + 1, cursor =>
    if cursor.rest.head? = some ']' then some ([], cursor.skip 1)
    else do
      let ((key, value), next) ← flowPair? steps cursor
      let item := value.elim key fun value => .mapping [(key, value)]
      match next.rest with
      | ',' :: _ =>
        let (items, last) ← flowItems? steps (next.skip 1).settle
        return (item :: items, last)
      | ']' :: _ => return ([item], next.skip 1)
      | _ => none

def flowEntries? : Nat → Cursor → Option (List (Node × Node) × Cursor)
  | 0, _ => none
  | steps + 1, cursor =>
    if cursor.rest.head? = some '\x7d' then some ([], cursor.skip 1)
    else do
      let ((key, value), next) ← flowPair? steps cursor
      if key.isScalar then
        match next.rest with
        | ',' :: _ =>
          let (entries, last) ← flowEntries? steps (next.skip 1).settle
          return ((key, value.getD .empty) :: entries, last)
        | '\x7d' :: _ => return ([(key, value.getD .empty)], next.skip 1)
        | _ => none
      else none

end

mutual

/-- A node that is indented further than `indent`. Where no key may stand it is no block. -/
def blockNode? : Nat → Int → Bool → Cursor → Option (Node × Cursor)
  | 0, _, _, _ => none
  | steps + 1, indent, mayBlock, cursor =>
    if cursor.atMark '-' then
      if mayBlock then blockItems? steps cursor.column false cursor else none
    else if cursor.rest.head?.any (fun c => c = '[' || c = '\x7b') then
      (flowNode? (4 * cursor.rest.length + 8) cursor).map fun (value, next) => (value, next.settle)
    else do
      let (value, next) ← scalar? .block indent cursor
      let next := next.settle
      if next.atMark ':' ∧ isKey cursor next then
        if mayBlock then blockEntries? steps cursor.column cursor else none
      else return (value, next)

/-- The node behind a mark of a block that begins in `column`, on the line of the mark or
below it. A sequence under a key need not be indented. -/
def blockValue? : Nat → Nat → Bool → Nat → Cursor → Option (Node × Cursor)
  | 0, _, _, _, _ => none
  | steps + 1, column, underKey, line, cursor =>
    if cursor.atEnd then some (.empty, cursor)
    else if cursor.line = line then blockNode? steps column (!underKey) cursor
    else if column < cursor.column then blockNode? steps column true cursor
    else if underKey ∧ cursor.column = column ∧ cursor.atMark '-' then
      blockItems? steps column true cursor
    else some (.empty, cursor)

def blockItems? : Nat → Nat → Bool → Cursor → Option (Node × Cursor)
  | 0, _, _, _ => none
  | steps + 1, column, underKey, cursor => do
    let (item, next) ← blockValue? steps column false cursor.line (cursor.skip 1).settle
    if next.atEnd ∨ next.column < column then return (.list [item], next)
    else if next.column = column ∧ next.atMark '-' then
      match ← blockItems? steps column underKey next with
      | (.list items, last) => return (.list (item :: items), last)
      | _ => none
    else if underKey ∧ next.column = column then return (.list [item], next)
    else none

def blockEntries? : Nat → Nat → Cursor → Option (Node × Cursor)
  | 0, _, _ => none
  | steps + 1, column, cursor => do
    let (key, colon) ← scalar? .block column cursor
    let colon := colon.settle
    if colon.atMark ':' ∧ isKey cursor colon then
      let (value, next) ← blockValue? steps column true colon.line (colon.skip 1).settle
      if next.atEnd ∨ next.column < column then return (.mapping [(key, value)], next)
      else if next.column = column then
        match ← blockEntries? steps column next with
        | (.mapping entries, last) => return (.mapping ((key, value) :: entries), last)
        | _ => none
      else none
    else none

end

/-- Passes over the marks that close a document. -/
def finish : Nat → Cursor → Cursor
  | 0, cursor => cursor
  | steps + 1, cursor =>
    if cursor.atFinish then finish steps (cursor.skip 3).settle else cursor

/-- Line breaks of other systems are read as the one line break. -/
def unifyBreaks : Text → Text
  | '\r' :: '\n' :: rest => '\n' :: unifyBreaks rest
  | c :: rest => (if c = '\r' ∨ c = '\u0085' then '\n' else c) :: unifyBreaks rest
  | [] => []

/-- The characters a document may hold. -/
def isAllowed (c : Char) : Bool :=
  let code := c.toNat
  c = '\t' || c = '\n' || c = '\r' || code = 0x85 || (0x20 ≤ code && code ≤ 0x7E)
    || (0xA0 ≤ code && code ≤ 0xFFFD) || 0x10000 ≤ code

/-- The only document of a text; a text without one stands for nothing. -/
def compose? (text : Text) : Option Node :=
  if !text.all isAllowed then none else
  let text := unifyBreaks text
  let text := if text.head? = some '\ufeff' then text.drop 1 else text
  let steps := 4 * text.length + 8
  let start := (Cursor.mk text 0 0).settle
  if start.rest = [] then some .empty
  else do
    let (value, next) ←
      if start.atStart then
        let body := (start.skip 3).settle
        if body.atEnd then some (.empty, body)
        else blockNode? steps (-1) (body.line ≠ start.line) body
      else if start.atFinish then none
      else blockNode? steps (-1) true start
    if (finish steps next).rest = [] then some value else none

/-- The value of the only document of a text. -/
def read (text : Text) : Except Fault Value :=
  (compose? text).elim (.error .refused) Node.construct

end LegibleTrace.Yaml
