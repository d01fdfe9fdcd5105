/-
PocketLisp/Run/Port.lean

Ports: texts of files that are read form by form.  A port that is being read
is not in the table meanwhile; it is put back, at the place that reading has
reached, also when reading fails.
-/
import PocketLisp.Run.Parsing

namespace PocketLisp

namespace PortTable

/-- The table without ports. -/
def empty : PortTable := ⟨0, []⟩

/-- Opens a port on a text; the result is its number. -/
def openOn (t : PortTable) (source : Source) : Nat × PortTable :=
  (t.opened + 1, ⟨t.opened + 1, (t.opened + 1, source) :: t.ports⟩)

/-- What remains of the text of a port. -/
def source? (t : PortTable) (port : Nat) : Option Source :=
  t.ports.lookup port

/-- Takes a port out of the table. -/
def remove (t : PortTable) (port : Nat) : PortTable :=
  { t with ports := t.ports.filter fun p => p.1 != port }

/-- Puts a port back into the table. -/
def putBack (t : PortTable) (port : Nat) (source : Source) : PortTable :=
  { t with ports := (port, source) :: t.ports }

end PortTable

namespace Store

/-- Adds a table of ports, whose place is the result. -/
def addPortTable (s : Store) : Nat × Store :=
  (s.portTables.size, { s with portTables := s.portTables.push .empty })

/-- The table of ports at a place. -/
def portTable (s : Store) (i : Nat) : PortTable := s.portTables.getD i .empty

/-- Changes a table of ports. -/
def modifyPorts (s : Store) (i : Nat) (change : PortTable → PortTable) : Store :=
  { s with portTables := s.portTables.modify i change }

/-- Opens a port on a text; the result is its number. -/
def openPort (s : Store) (i : Nat) (source : Source) : Nat × Store :=
  let (port, table) := (s.portTable i).openOn source
  (port, s.modifyPorts i fun _ => table)

end Store

namespace Run.Port

/-- Takes a port out of its table; the result is its number and what remains of its text. -/
def take (table : Nat) (operation : String) (v : Value) : Run (Nat × Source) := do
  let port ← v.expectIndex operation
  match ← read fun s => (s.portTable table).source? port with
  | some source =>
    change fun s => s.modifyPorts table fun t => t.remove port
    return (port, source)
  | none => fault (.io operation ("port " ++ toString port ++ " is not open"))

/-- Opens a port on a file. -/
def openFile (table : Nat) (v : Value) : Run Value := do
  let operation := "sys:open-file-for-input"
  let path ← v.expectText operation
  match ← update fun s => s.readFile path with
  | .ok content =>
    let port ← update fun s => s.openPort table content.toList
    return .number (Float.ofNat port)
  | .error e => fault (.io operation (path ++ ": " ++ e.message))

/-- Reads the next form from a port, or gives the marker if there is none. -/
def next (self : Recur) (table : Nat) (marker : Symbol) (v : Value) (env : FrameId) :
    Run Value := do
  let (port, source) ← take table "sys:read" v
  let source := source.skip
  if source.isEmpty then
    change fun s => s.modifyPorts table fun t => t.putBack port source
    return .symbol marker
  else
    let global ← global env
    let (form, rest) ← self.form .code global source
    change fun s => s.modifyPorts table fun t => t.putBack port rest
    ofExcept form

/-- Closes a port. -/
def close (table : Nat) (v : Value) : Run Value := do
  let _ ← take table "sys:close" v
  return .t

end Run.Port

end PocketLisp
