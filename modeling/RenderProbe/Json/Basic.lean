import RenderProbe.Text.Quoted

/-!
# JSON values

Values of the JSON format and their indented text. Objects keep the order of their members; of
members with one name the last counts.
-/

namespace RenderProbe

/-- A JSON value; a number is kept as it is written. -/
inductive Json where
  | null
  | bool (value : Bool)
  | number (literal : String)
  | string (value : String)
  | array (items : List Json)
  | object (members : List (String × Json))
  deriving Inhabited

namespace Json

/-- The member of an object with the given name, the last of them. A value of another kind has no
members. -/
def member? (name : String) : Json → Option Json
  | object members => members.reverse.lookup name
  | _ => none

def hasMember (name : String) : Json → Bool
  | object members => members.any fun member => member.1 == name
  | _ => false

/-! ## Text -/

def unitEscape (unit : Nat) : List Char :=
  '\\' :: 'u' :: Text.hexDigits 4 unit

/-- One character between double quotes; everything beyond ASCII is escaped. A character beyond the
first plane becomes a pair of units. -/
def quotedChar (c : Char) : List Char :=
  if c == '"' || c == '\\' then ['\\', c]
  else if c == '\n' then ['\\', 'n']
  else if c == '\r' then ['\\', 'r']
  else if c == '\t' then ['\\', 't']
  else if c.toNat == 8 then ['\\', 'b']
  else if c.toNat == 12 then ['\\', 'f']
  else if 32 ≤ c.toNat && c.toNat < 127 then [c]
  else if c.toNat < 0x10000 then unitEscape c.toNat
  else
    let beyond := c.toNat - 0x10000
    unitEscape (0xD800 + beyond / 0x400) ++ unitEscape (0xDC00 + beyond % 0x400)

def quoted (text : String) : List Char :=
  '"' :: text.toList.flatMap quotedChar ++ ['"']

/-- A line break and the indentation of a level. -/
def newLine (level : Nat) : List Char :=
  '\n' :: List.replicate (2 * level) ' '

mutual

def textAt (level : Nat) : Json → List Char
  | null => "null".toList
  | bool true => "true".toList
  | bool false => "false".toList
  | number literal => literal.toList
  | string value => quoted value
  | array [] => ['[', ']']
  | array (item :: rest) =>
    '[' :: newLine (level + 1) ++ textAt (level + 1) item ++ itemsAt (level + 1) rest
      ++ newLine level ++ [']']
  | object [] => ['\x7b', '\x7d']
  | object ((name, value) :: rest) =>
    '\x7b' :: newLine (level + 1) ++ quoted name ++ [':', ' '] ++ textAt (level + 1) value
      ++ membersAt (level + 1) rest ++ newLine level ++ ['\x7d']

def itemsAt (level : Nat) : List Json → List Char
  | [] => []
  | item :: rest => ',' :: newLine level ++ textAt level item ++ itemsAt level rest

def membersAt (level : Nat) : List (String × Json) → List Char
  | [] => []
  | (name, value) :: rest =>
    ',' :: newLine level ++ quoted name ++ [':', ' '] ++ textAt level value
      ++ membersAt level rest

end

/-- A value as indented text. -/
def pretty (value : Json) : String :=
  String.ofList (textAt 0 value)

end Json

end RenderProbe
