import Bhasha.Toml.Line

/-!
# What a TOML document defines

The lines of a document are taken one after the other into a draft: the tables built so far, the
keys that were listed, the tables that are there only because a longer key went through them, and
the keys whose value is an array.  A key is defined once, with two exceptions.  A table that a
longer key brought about may still get its own header; and a value that replaces an array, or an
array that replaces a value, is accepted.

Values other than strings and tables are not told apart any further.

Source: the TOML library that `decode` of package `config` of benglang calls.
-/

namespace Bhasha.Toml

/-- The value of a key. -/
inductive Node where
  | string (value : Text)
  | scalar
  | array
  | table (entries : List (Text × Node))
  /-- Tables under one header; only the last of them can still grow, and only it is kept. -/
  | tables (last : List (Text × Node))
deriving Inhabited

/-- The keys of a table in the order in which they were defined. -/
abbrev Table := List (Text × Node)

namespace Table

/-- Gives a key a value, in the place of its present one if it has one. -/
def put (key : Text) (value : Node) : Table → Table
  | [] => [(key, value)]
  | entry :: rest => if entry.1 = key then (key, value) :: rest else entry :: put key value rest

/-- The table at the end of a path. Every part of the path has to lead to a table. -/
def at? : Key → Table → Option Table
  | [], t => some t
  | part :: path, t =>
    match t.lookup part with
    | some (.table inner) => at? path inner
    | some (.tables last) => at? path last
    | _ => none

/-- Changes the table at the end of a path, if there is one. -/
def change (f : Table → Table) : Key → Table → Table
  | [], t => f t
  | part :: path, t =>
    match t.lookup part with
    | some (.table inner) => put part (.table (change f path inner)) t
    | some (.tables last) => put part (.tables (change f path last)) t
    | _ => t

/-- Puts a value under a key of several parts, through tables that are made on the way. -/
def graft? (key : Text) (value : Node) : Key → Table → Option Table
  | [], t => some (put key value t)
  | part :: path, t =>
    match t.lookup part with
    | none => (graft? key value path []).map fun inner => put part (.table inner) t
    | some (.table inner) =>
      (graft? key value path inner).map fun inner => put part (.table inner) t
    | some _ => none

end Table

/-- A document that is being read. -/
structure Draft where
  root : Table
  /-- The keys that headers and entries spell out, with the keys before them. -/
  listed : List Key
  /-- The tables that may still be defined. -/
  implicit : List Key
  /-- The keys whose value is an array. -/
  arrays : List Key

/-- A step that may find the document contradictory. -/
abbrev Builder := StateT Draft Option

namespace Builder

def list (key : Key) : Builder Unit :=
  modify fun d => { d with listed := d.listed ++ [key] }

def addImplicit (path : Key) : Builder Unit :=
  modify fun d => { d with implicit := path :: d.implicit }

def removeImplicit (path : Key) : Builder Unit :=
  modify fun d => { d with implicit := d.implicit.filter (· != path) }

/-- The key that a note on a value is kept under. An empty key stands for its table. -/
def notePath (context : Key) (key : Text) : Key :=
  if !key.isEmpty then context ++ [key]
  else if context.isEmpty then [key]
  else context

/-- Notes whether the value of a key is an array. -/
def note (context : Key) (key : Text) (isArray : Bool) : Builder Unit :=
  modify fun d =>
    let path := notePath context key
    let others := d.arrays.filter (· != path)
    { d with arrays := if isArray then path :: others else others }

/-- The table at the end of a path. -/
def tableAt (path : Key) : Builder Table := do
  let d ← get
  (d.root.at? path : Option Table)

/-- Gives a key of a table a value. -/
def put (context : Key) (key : Text) (value : Node) : Builder Unit :=
  modify fun d => { d with root := d.root.change (·.put key value) context }

/-- Defines a key of a table. -/
def define (context : Key) (key : Text) (value : Node) : Builder Unit := do
  let path := context ++ [key]
  let t ← tableAt context
  let d ← get
  if (t.lookup key).isNone then put context key value
  else if d.arrays.contains path then
    removeImplicit path
    put context key value
  else if d.implicit.contains path then removeImplicit path
  else failure

/-- Makes the tables that lead to the last part of a key, as far as they are missing. -/
def openParents (done : Key) : Key → Builder Unit
  | [] | [_] => pure ()
  | part :: rest => do
    let path := done ++ [part]
    let t ← tableAt done
    if (t.lookup part).isNone then
      addImplicit path
      put done part (.table [])
    openParents path rest

/-- Adds a further table to the tables under a key of a table. -/
def defineElement (context : Key) (key : Text) : Builder Unit := do
  let t ← tableAt context
  match t.lookup key with
  | none | some (.tables _) => put context key (.tables [])
  | some _ => failure

/-- Opens the table of a header. -/
def openTable (key : Key) : Builder Unit := do
  openParents [] key
  define key.dropLast (key.getLastD []) (.table [])

/-- Opens a further table under a header of tables. -/
def openElement (key : Key) : Builder Unit := do
  openParents [] key
  defineElement key.dropLast (key.getLastD [])

/-- Opens the tables that a key with points goes through, and gives the path to the last one. -/
def openPath (context : Key) : Key → Builder Key
  | [] => pure context
  | part :: rest => do
    let path := context ++ [part]
    addImplicit path
    define context part (.table [])
    openPath path rest

/-- Whether a value is an array. -/
def isArray : Raw → Bool
  | .array _ => true
  | _ => false

mutual

/-- The value of a key. A table in an array is a further one under its key. -/
def value (context : Key) (key : Text) (inArray : Bool) : Raw → Builder Node
  | .string s => pure (.string s)
  | .scalar => pure .scalar
  | .array items => do
    note context key true
    values context key items
    pure .array
  | .table inner => do
    let path := context ++ [key]
    addImplicit path
    if inArray then defineElement context key else define context key (.table [])
    let built ← entries path [] inner
    pure (.table built)

/-- The items of an array. -/
def values (context : Key) (key : Text) : List Raw → Builder Unit
  | [] => pure ()
  | item :: rest => do
    let _ ← value context key true item
    values context key rest

/-- The entries of a table on one line. -/
def entries (context : Key) (built : Table) : List (Key × Raw) → Builder Table
  | [] => pure built
  | (key, raw) :: rest => do
    let path ← openPath context key.dropLast
    let last := key.getLastD []
    list (path ++ [last])
    let found ← value path last false raw
    define path last found
    note path last (isArray raw)
    let built ← (built.graft? last found key.dropLast : Option Table)
    entries context built rest

end

/-- Takes one line, in the table that the last header opened, and gives the table that is open
after it. -/
def line (context : Key) : Line → Builder Key
  | .header key => do
    openTable key
    note key [] false
    list key
    pure key
  | .element key => do
    openElement key
    note key [] false
    list key
    pure key
  | .entry key raw => do
    let path ← openPath context key.dropLast
    let last := key.getLastD []
    list (path ++ [last])
    let found ← value path last false raw
    define path last found
    note path last (isArray raw)
    pure context

/-- Takes all lines. -/
def lines (context : Key) : List Line → Builder Unit
  | [] => pure ()
  | first :: rest => do
    let context ← line context first
    lines context rest

end Builder

/-- A document: its tables, and the keys it spells out in their order. -/
structure Document where
  root : Table
  listed : List Key

/-- Reads a document. -/
def Document.read? (source : Text) : Option Document := do
  let ((), d) ← (Builder.lines [] (← Toml.read? source)).run ⟨[], [], [], []⟩
  some ⟨d.root, d.listed⟩

/-- A byte of a key between quotation marks. -/
def keyByte (b : UInt8) : Text :=
  match b with
  | 0x22 => text "\\\""
  | 0x5c => text "\\\\"
  | 0x08 => text "\\b"
  | 0x09 => text "\\t"
  | 0x0a => text "\\n"
  | 0x0c => text "\\f"
  | 0x0d => text "\\r"
  | _ => if b < 0x20 || b = 0x7f then text "\\u" ++ Text.hex 4 b.toNat else [b]

/-- A part of a key, between quotation marks unless it can be read without them. -/
def keyPartText (part : Text) : Text :=
  if !part.isEmpty && part.all isBareKeyByte then part
  else 0x22 :: part.flatMap keyByte ++ [0x22]

/-- A key as text. -/
def Key.render (key : Key) : Text := Text.joinWith (text ".") (key.map keyPartText)

end Bhasha.Toml
