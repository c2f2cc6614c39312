import LiveSchema.Json.Numeral

/-!
# LiveSchema.Json.Reader

Reading a JSON text into a `Document`. Every function takes characters off the front of a text and
answers `none` for the rest where the text breaks off. The recursion over nested values is bounded
by a count that starts at the length of the text: each step takes at least one character.
-/

namespace LiveSchema.Json.Reader

/-- Skip blanks, tabs and line ends. -/
def skipSpace (cs : List Char) : List Char :=
  cs.dropWhile (fun c => c = ' ' || c = '\n' || c = '\t' || c = '\r')

/-- The rest of a word that has begun. -/
def readWord : List Char → List Char → Except Fault (List Char)
  | [], cs => .ok cs
  | _ :: _, [] => .error .endInValue
  | w :: word, c :: cs => if c = w then readWord word cs else .error .expectedWord

/-! ### Strings -/

/-- The value of a hexadecimal digit. -/
def hexValue? (c : Char) : Option Nat :=
  if '0' ≤ c ∧ c ≤ '9' then some (c.toNat - 48)
  else if 'a' ≤ c ∧ c ≤ 'f' then some (c.toNat - 87)
  else if 'A' ≤ c ∧ c ≤ 'F' then some (c.toNat - 55)
  else none

/-- The four hexadecimal digits of an escape. A text with fewer than four bytes left ends inside the
string. -/
def readHex (cs : List Char) : Except Fault (Nat × List Char) :=
  let four := cs.take 4
  if (String.ofList four).utf8ByteSize < 4 then .error .endInString
  else
    match four.mapM hexValue? with
    | some [a, b, c, d] => .ok (((a * 16 + b) * 16 + c) * 16 + d, cs.drop 4)
    | _ => .error .invalidEscape

/-- What an escape of one letter stands for. -/
def letterEscape? : Char → Option Char
  | '"' => some '"'
  | '\\' => some '\\'
  | '/' => some '/'
  | 'b' => some '\x08'
  | 'f' => some '\x0c'
  | 'n' => some '\n'
  | 'r' => some '\r'
  | 't' => some '\t'
  | _ => none

/-- Where the halves of a surrogate pair lie. -/
def isFirstHalf (code : Nat) : Bool := 0xD800 ≤ code && code ≤ 0xDBFF

/-- The range of second halves. -/
def isSecondHalf (code : Nat) : Bool := 0xDC00 ≤ code && code ≤ 0xDFFF

/-- What a string has shown so far: its characters, last one first, or the surrogate that makes it
unreadable. -/
abbrev Partial := Except Fault (List Char)

/-- Add a character to a readable string. -/
def Partial.push (p : Partial) (c : Char) : Partial := p.map (c :: ·)

/-- Mark a string as unreadable, unless it was so before. -/
def Partial.spoil (p : Partial) (fault : Fault) : Partial := p.bind fun _ => .error fault

/-- The break of a string that has a fault here. -/
def Partial.break (p : Partial) (fault : Fault) : Break :=
  match p with
  | .ok _ => Break.plain fault
  | .error earlier => ⟨earlier, fault, earlier⟩

/-- The characters of a string after its opening quote, and what follows its closing quote. -/
def readString : Nat → Partial → List Char → Except Break (Except Fault String × List Char)
  | 0, p, _ => .error (p.break .endInString)
  | _ + 1, p, [] => .error (p.break .endInString)
  | _ + 1, p, '"' :: cs => .ok (p.map fun back => String.ofList back.reverse, cs)
  | _ + 1, p, ['\\'] => .error (p.break .endInString)
  | fuel + 1, p, '\\' :: 'u' :: cs =>
    match readHex cs with
    | .error fault => .error (p.break fault)
    | .ok (code, cs) =>
      if isSecondHalf code then readString fuel (p.spoil .loneSurrogate) cs
      else if isFirstHalf code then
        match cs with
        | '\\' :: 'u' :: second =>
          match readHex second with
          | .error fault => .error (p.break fault)
          | .ok (low, after) =>
            if isSecondHalf low then
              readString fuel
                (p.push (Char.ofNat ((code - 0xD800) * 1024 + (low - 0xDC00) + 0x10000))) after
            else readString fuel (p.spoil .loneSurrogate) cs
        | [] => .error (p.break .endInString)
        | ['\\'] => .error (p.break .endInString)
        | _ => readString fuel (p.spoil .unpairedEscape) cs
      else readString fuel (p.push (Char.ofNat code)) cs
  | fuel + 1, p, '\\' :: c :: cs =>
    match letterEscape? c with
    | some c => readString fuel (p.push c) cs
    | none => .error (p.break .invalidEscape)
  | fuel + 1, p, c :: cs =>
    if c.toNat < 32 then .error (p.break .controlCharacter) else readString fuel (p.push c) cs

/-! ### Values -/

/-- Whether a character begins a number. -/
def beginsNumber (c : Char) : Bool := c = '-' || c.isDigit

/-- A constant whose first letter has been read. -/
def readConstant (word : List Char) (value : Document) (cs : List Char) :
    Document × Option (List Char) :=
  match readWord word cs with
  | .ok rest => (value, some rest)
  | .error fault => (.broken (Break.plain fault).unnamed, none)

mutual

/-- One value, after any space. -/
def readValue : Nat → List Char → Document × Option (List Char)
  | 0, _ => (.broken (Break.plain .endInValue), none)
  | fuel + 1, cs =>
    match skipSpace cs with
    | [] => (.broken (Break.plain .endInValue), none)
    | 'n' :: rest => readConstant ['u', 'l', 'l'] .null rest
    | 't' :: rest => readConstant ['r', 'u', 'e'] (.bool true) rest
    | 'f' :: rest => readConstant ['a', 'l', 's', 'e'] (.bool false) rest
    | '"' :: rest =>
      match readString (rest.length + 1) (.ok []) rest with
      | .ok (s, rest) => (.string s, some rest)
      | .error place => (.broken place, none)
    | '[' :: rest =>
      match skipSpace rest with
      | [] => (.list [] (some (Break.plain .endInList)), none)
      | ']' :: rest => (.list [] none, some rest)
      | rest =>
        let (items, ending, rest) := readItems fuel rest
        (.list items ending, rest)
    | '\x7b' :: rest =>
      match skipSpace rest with
      | [] => (.object [] (some (Break.plain .endInObject)), none)
      | '\x7d' :: rest => (.object [] none, some rest)
      | rest =>
        let (entries, ending, rest) := readEntries fuel rest
        (.object entries ending, rest)
    | c :: rest =>
      if beginsNumber c then
        match Numeral.scan (c :: rest) with
        | .ok (numeral, rest) => (.number numeral.value, some rest)
        | .error place => (.broken place, none)
      else (.broken (Break.plain .expectedValue), none)

/-- One item of a list and those after it. -/
def readItems : Nat → List Char → List Document × Option Break × Option (List Char)
  | 0, _ => ([], some (Break.plain .endInList), none)
  | fuel + 1, cs =>
    match readValue fuel cs with
    | (item, none) => ([item], none, none)
    | (item, some rest) =>
      match skipSpace rest with
      | [] => ([item], some (Break.plain .endInList), none)
      | ']' :: rest => ([item], none, some rest)
      | ',' :: rest =>
        match skipSpace rest with
        | [] => ([item], some (Break.plain .endInValue), none)
        | ']' :: _ => ([item], some ⟨.trailingComma, .expectedValue, .trailingComma⟩, none)
        | rest =>
          let (items, ending, rest) := readItems fuel rest
          (item :: items, ending, rest)
      | _ => ([item], some (Break.plain .expectedListSeparator), none)

/-- One field of an object and those after it. -/
def readEntries : Nat → List Char →
    List (Except Fault String × Document) × Option Break × Option (List Char)
  | 0, _ => ([], some (Break.plain .endInObject), none)
  | fuel + 1, cs =>
    match skipSpace cs with
    | '"' :: rest =>
      match readString (rest.length + 1) (.ok []) rest with
      | .error place => ([], some place, none)
      | .ok (name, rest) =>
        match skipSpace rest with
        | ':' :: rest =>
          match readValue fuel rest with
          | (value, none) => ([(name, value)], none, none)
          | (value, some rest) =>
            match skipSpace rest with
            | [] => ([(name, value)], some (Break.plain .endInObject), none)
            | '\x7d' :: rest => ([(name, value)], none, some rest)
            | ',' :: rest =>
              match skipSpace rest with
              | [] => ([(name, value)], some ⟨.endInValue, .endInObject, .endInValue⟩, none)
              | '\x7d' :: _ =>
                ([(name, value)], some ⟨.trailingComma, .keyNotString, .trailingComma⟩, none)
              | rest =>
                let (entries, ending, rest) := readEntries fuel rest
                ((name, value) :: entries, ending, rest)
            | _ => ([(name, value)], some (Break.plain .expectedObjectSeparator), none)
        | [] => ([(name, .broken (Break.plain .endInObject))], none, none)
        | _ => ([(name, .broken (Break.plain .expectedColon))], none, none)
    | _ => ([], some (Break.plain .keyNotString), none)

end

end Reader

/-- A whole text: its document, and whether something follows the value. -/
structure Text where
  document : Document
  trailing : Bool

/-- Read a text. A bracket takes two steps, one for the list and one for its first item, and every
step that does not open a bracket passes over a character. -/
def Text.ofString (s : String) : Text :=
  let cs := s.toList
  match Reader.readValue (2 * cs.length + 1) cs with
  | (document, none) => ⟨document, false⟩
  | (document, some rest) => ⟨document, !(Reader.skipSpace rest).isEmpty⟩

/-- The value that a text denotes. -/
def parse (s : String) : Except Fault Json := do
  let text := Text.ofString s
  let value ← text.document.toJson
  if text.trailing then .error .trailingCharacters else .ok value

end LiveSchema.Json
