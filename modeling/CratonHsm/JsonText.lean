import CratonHsm.AsciiText

/-!
# JSON texts

A reader of JSON texts after the grammar of RFC 8259: literals, numbers, strings with their escapes
and surrogate pairs, arrays and objects, white space between the tokens.  Objects keep their members
in the order of the text, with duplicates.  The recursion is over fuel, and the length of the text
is enough of it: every token takes a character.

A string is written back with the escapes that the grammar asks for (`escape`), and an object of
strings is read back as it was written (`parse_objectText`).
-/

namespace JsonText
open AsciiText List

/-- A JSON document; a number is its text. -/
inductive Json where
  | null
  | bool (value : Bool)
  | number (text : List Char)
  | string (text : List Char)
  | array (elements : List Json)
  | object (members : List (List Char × Json))

/-! ## Strings -/

/-- The value of a hexadecimal digit. -/
def hexDigit (c : Char) : Option Nat :=
  if '0' ≤ c ∧ c ≤ '9' then some (c.toNat - 48)
  else if 'a' ≤ c ∧ c ≤ 'f' then some (c.toNat - 87)
  else if 'A' ≤ c ∧ c ≤ 'F' then some (c.toNat - 55)
  else none

/-- Four hexadecimal digits. -/
def readHex4 : List Char → Option (Nat × List Char)
  | a :: b :: c :: d :: rest =>
    match hexDigit a, hexDigit b, hexDigit c, hexDigit d with
    | some a, some b, some c, some d => some (((a * 16 + b) * 16 + c) * 16 + d, rest)
    | _, _, _, _ => none
  | _ => none

/-- What follows `\u`: a code point, or the first half of a surrogate pair with the second. -/
def readUnicode (text : List Char) : Option (Char × List Char) :=
  match readHex4 text with
  | none => none
  | some (high, rest) =>
    if 0xD800 ≤ high ∧ high < 0xDC00 then
      match rest with
      | '\\' :: 'u' :: rest =>
        match readHex4 rest with
        | none => none
        | some (low, rest) =>
          if 0xDC00 ≤ low ∧ low < 0xE000 then
            some (Char.ofNat (0x10000 + (high - 0xD800) * 0x400 + (low - 0xDC00)), rest)
          else none
      | _ => none
    else if 0xDC00 ≤ high ∧ high < 0xE000 then none
    else some (Char.ofNat high, rest)

/-- The character that a one-letter escape stands for. -/
def simpleEscape (c : Char) : Option Char :=
  if c = '"' then some '"'
  else if c = '\\' then some '\\'
  else if c = '/' then some '/'
  else if c = 'b' then some '\x08'
  else if c = 'f' then some '\x0c'
  else if c = 'n' then some '\n'
  else if c = 'r' then some '\r'
  else if c = 't' then some '\t'
  else none

/-- One character of a string: as it is, or after a backslash. -/
def readChar : List Char → Option (Char × List Char)
  | [] => none
  | c :: rest =>
    if c = '\\' then
      match rest with
      | [] => none
      | d :: rest => if d = 'u' then readUnicode rest else (simpleEscape d).map (·, rest)
    else if c.toNat < 0x20 then none
    else some (c, rest)

/-- The characters up to the closing quotation mark. -/
def readChars : Nat → List Char → Option (List Char × List Char)
  | 0, _ => none
  | _, [] => none
  | fuel + 1, c :: rest =>
    if c = '"' then some ([], rest)
    else
      match readChar (c :: rest) with
      | none => none
      | some (d, rest) => (readChars fuel rest).map fun (text, rest) => (d :: text, rest)

/-! ## Numbers -/

def digits (text : List Char) : List Char := text.takeWhile Char.isDigit

/-- A number is taken as it stands: sign, integer part, fraction, exponent. -/
def readNumber (text : List Char) : Option (List Char × List Char) :=
  let sign := if text.head? = some '-' then ['-'] else []
  let body := text.drop sign.length
  let whole := if body.head? = some '0' then ['0'] else digits body
  if whole = [] then none
  else
    let rest := body.drop whole.length
    let frac := if rest.head? = some '.' then '.' :: digits rest.tail else []
    if frac = ['.'] then none
    else
      let rest' := rest.drop frac.length
      if rest'.head? = some 'e' ∨ rest'.head? = some 'E' then
        let signed := rest'.tail.head? = some '+' ∨ rest'.tail.head? = some '-'
        let mark := rest'.take (if signed then 2 else 1)
        let expo := digits (rest'.drop mark.length)
        if expo = [] then none
        else some (sign ++ whole ++ frac ++ mark ++ expo, rest'.drop (mark.length + expo.length))
      else some (sign ++ whole ++ frac, rest')

/-! ## Values -/

def isWs (c : Char) : Bool := c = ' ' || c = '\t' || c = '\n' || c = '\r'

/-- What follows the white space. -/
def skipWs (text : List Char) : List Char := text.dropWhile isWs

/-- A string with its opening quotation mark. -/
def readString (text : List Char) : Option (List Char × List Char) :=
  match text with
  | [] => none
  | c :: rest => if c = '"' then readChars (rest.length + 1) rest else none

def readLiteral (word : List Char) (value : Json) (text : List Char) : Option (Json × List Char) :=
  if word.isPrefixOf text then some (value, text.drop word.length) else none

mutual

/-- A value and what follows it. -/
def readValue : Nat → List Char → Option (Json × List Char)
  | 0, _ => none
  | fuel + 1, text =>
    match skipWs text with
    | [] => none
    | c :: rest =>
      if c = '"' then (readString (c :: rest)).map fun (value, rest) => (.string value, rest)
      else if c = '\x7b' then
        match skipWs rest with
        | [] => none
        | d :: rest =>
          if d = '\x7d' then some (.object [], rest)
          else (readMembers fuel (d :: rest)).map fun (members, rest) => (.object members, rest)
      else if c = '[' then
        match skipWs rest with
        | [] => none
        | d :: rest =>
          if d = ']' then some (.array [], rest)
          else (readElements fuel (d :: rest)).map fun (elements, rest) => (.array elements, rest)
      else if c = 't' then readLiteral "true".toList (.bool true) (c :: rest)
      else if c = 'f' then readLiteral "false".toList (.bool false) (c :: rest)
      else if c = 'n' then readLiteral "null".toList .null (c :: rest)
      else (readNumber (c :: rest)).map fun (text, rest) => (.number text, rest)

/-- At least one member, up to the closing brace. -/
def readMembers : Nat → List Char → Option (List (List Char × Json) × List Char)
  | 0, _ => none
  | fuel + 1, text =>
    match readString (skipWs text) with
    | none => none
    | some (name, rest) =>
      match skipWs rest with
      | [] => none
      | c :: rest =>
        if c ≠ ':' then none
        else
          match readValue fuel rest with
          | none => none
          | some (value, rest) =>
            match skipWs rest with
            | [] => none
            | d :: rest =>
              if d = '\x7d' then some ([(name, value)], rest)
              else if d = ',' then
                (readMembers fuel rest).map fun (members, rest) => ((name, value) :: members, rest)
              else none

/-- At least one element, up to the closing bracket. -/
def readElements : Nat → List Char → Option (List Json × List Char)
  | 0, _ => none
  | fuel + 1, text =>
    match readValue fuel text with
    | none => none
    | some (value, rest) =>
      match skipWs rest with
      | [] => none
      | d :: rest =>
        if d = ']' then some ([value], rest)
        else if d = ',' then
          (readElements fuel rest).map fun (elements, rest) => (value :: elements, rest)
        else none

end

/-- A text is one value, with white space around it. -/
def parse (text : List Char) : Option Json :=
  match readValue (text.length + 1) text with
  | none => none
  | some (value, rest) => if skipWs rest = [] then some value else none

/-! ## Writing strings and objects of strings -/

/-- A character of a string as it is written. -/
def escape (c : Char) : List Char :=
  if c = '"' then ['\\', '"']
  else if c = '\\' then ['\\', '\\']
  else if c = '\n' then ['\\', 'n']
  else if c = '\r' then ['\\', 'r']
  else if c = '\t' then ['\\', 't']
  else if c = '\x08' then ['\\', 'b']
  else if c = '\x0c' then ['\\', 'f']
  else if c.toNat < 0x20 then
    ['\\', 'u', '0', '0', hexChar (c.toNat / 16), hexChar (c.toNat % 16)]
  else [c]

/-- A string with its escapes. -/
def stringText (text : List Char) : List Char := '"' :: text.flatMap escape ++ ['"']

/-- A member of an object. -/
def memberText (member : List Char × List Char) : List Char :=
  stringText member.1 ++ ':' :: stringText member.2

/-- The members with commas between them, in braces. -/
def objectText (members : List (List Char × List Char)) : List Char :=
  '\x7b' :: [','].intercalate (members.map memberText) ++ ['\x7d']

theorem hexDigit_hexChar : ∀ n : Fin 16, hexDigit (hexChar n.val) = some n.val := by
  decide

/-- A control character is read from its code. -/
theorem readUnicode_control {c : Char} (h : c.toNat < 0x20) (rest : List Char) :
    readUnicode ('0' :: '0' :: hexChar (c.toNat / 16) :: hexChar (c.toNat % 16) :: rest) =
      some (c, rest) := by
  have hzero : hexDigit '0' = some 0 := by decide
  have hhigh := hexDigit_hexChar ⟨c.toNat / 16, by omega⟩
  have hlow := hexDigit_hexChar ⟨c.toNat % 16, by omega⟩
  have hcode : ((0 * 16 + 0) * 16 + c.toNat / 16) * 16 + c.toNat % 16 = c.toNat := by omega
  rw [readUnicode, readHex4, hzero, hhigh, hlow]
  dsimp only
  rw [hcode, if_neg (by omega), if_neg (by omega), Char.ofNat_toNat]

/-- **One character is read back**, and it does not start with a quotation mark. -/
theorem readChar_escape (c : Char) (rest : List Char) :
    readChar (escape c ++ rest) = some (c, rest) ∧ ∃ d tail, escape c = d :: tail ∧ d ≠ '"' := by
  unfold escape
  split_ifs with hquote hslash hn hr ht hb hf hcontrol
  · exact ⟨by subst hquote; rfl, '\\', _, rfl, by decide⟩
  · exact ⟨by subst hslash; rfl, '\\', _, rfl, by decide⟩
  · exact ⟨by subst hn; rfl, '\\', _, rfl, by decide⟩
  · exact ⟨by subst hr; rfl, '\\', _, rfl, by decide⟩
  · exact ⟨by subst ht; rfl, '\\', _, rfl, by decide⟩
  · exact ⟨by subst hb; rfl, '\\', _, rfl, by decide⟩
  · exact ⟨by subst hf; rfl, '\\', _, rfl, by decide⟩
  · exact ⟨readUnicode_control hcontrol rest, '\\', _, rfl, by decide⟩
  · refine ⟨?_, c, [], rfl, hquote⟩
    rw [singleton_append]
    unfold readChar
    dsimp only
    rw [if_neg hslash, if_neg hcontrol]

theorem readChars_flatMap_escape (text rest : List Char) {fuel : Nat} (h : text.length < fuel) :
    readChars fuel (text.flatMap escape ++ '"' :: rest) = some (text, rest) := by
  induction text generalizing fuel with
  | nil =>
    obtain ⟨fuel, rfl⟩ : ∃ k, fuel = k + 1 := ⟨fuel - 1, by omega⟩
    rw [List.flatMap_nil, List.nil_append, readChars, if_pos rfl]
  | cons c text ih =>
    obtain ⟨fuel, rfl⟩ : ∃ k, fuel = k + 1 := ⟨fuel - 1, by omega⟩
    rw [List.length_cons] at h
    obtain ⟨hread, d, tail, hescape, hquote⟩ :=
      readChar_escape c (text.flatMap escape ++ '"' :: rest)
    rw [flatMap_cons, append_assoc]
    rw [hescape, cons_append] at hread ⊢
    rw [readChars, if_neg hquote, hread]
    dsimp only
    rw [ih (by omega), Option.map_some]

theorem length_flatMap_escape (text : List Char) : text.length ≤ (text.flatMap escape).length := by
  induction text with
  | nil => exact Nat.le_refl _
  | cons c text ih =>
    obtain ⟨_, d, tail, hescape, _⟩ := readChar_escape c []
    rw [flatMap_cons, length_append, hescape, length_cons, length_cons]
    omega

theorem stringText_append (text rest : List Char) :
    stringText text ++ rest = '"' :: (text.flatMap escape ++ '"' :: rest) := by
  rw [stringText, cons_append, cons_append, append_assoc, singleton_append]

/-- **A string is read back.** -/
theorem readString_stringText (text rest : List Char) :
    readString (stringText text ++ rest) = some (text, rest) := by
  have hlength := length_flatMap_escape text
  rw [stringText_append, readString, if_pos rfl]
  exact readChars_flatMap_escape text rest (by rw [length_append]; omega)

theorem skipWs_stringText (text rest : List Char) :
    skipWs (stringText text ++ rest) = stringText text ++ rest := by
  rw [stringText_append, skipWs, dropWhile_cons_of_neg (by decide)]

theorem readValue_stringText (fuel : Nat) (text rest : List Char) :
    readValue (fuel + 1) (stringText text ++ rest) = some (.string text, rest) := by
  have hread := readString_stringText text rest
  rw [readValue, skipWs_stringText]
  rw [stringText_append] at hread ⊢
  dsimp only
  rw [if_pos rfl, hread, Option.map_some]

/-- A member is read up to the character behind it. -/
theorem readMembers_memberText (member : List Char × List Char) (fuel : Nat) {d : Char}
    {tail : List Char} (hd : skipWs (d :: tail) = d :: tail) :
    readMembers (fuel + 2) (memberText member ++ d :: tail) =
      if d = '\x7d' then some ([(member.1, .string member.2)], tail)
      else if d = ',' then (readMembers (fuel + 1) tail).map fun (members, rest) =>
        ((member.1, .string member.2) :: members, rest)
      else none := by
  have hcolon : ∀ rest, skipWs (':' :: rest) = ':' :: rest := fun rest =>
    dropWhile_cons_of_neg (by decide)
  rw [memberText, append_assoc, cons_append, readMembers, skipWs_stringText,
    readString_stringText]
  dsimp only
  rw [hcolon]
  dsimp only
  rw [if_neg (fun h => h rfl), readValue_stringText]
  dsimp only
  rw [hd]

section
variable (members : List (List Char × List Char))

/-- The members behind the opening brace are read back. -/
theorem readMembers_intercalate (rest : List Char)
    {fuel : Nat} (hne : members ≠ []) (hfuel : members.length < fuel) :
    readMembers fuel ([','].intercalate (members.map memberText) ++ '\x7d' :: rest) =
      some (members.map fun m => (m.1, .string m.2), rest) := by
  induction members generalizing fuel with
  | nil => exact absurd rfl hne
  | cons member members ih =>
    rw [length_cons] at hfuel
    obtain ⟨fuel, rfl⟩ : ∃ k, fuel = k + 2 := ⟨fuel - 2, by omega⟩
    cases members with
    | nil =>
      rw [map_cons, map_nil, intercalate_singleton,
        readMembers_memberText _ _ (dropWhile_cons_of_neg (by decide)), if_pos rfl]
      rfl
    | cons next members =>
      rw [map_cons, map_cons, intercalate_cons_cons, append_assoc,
        append_assoc, singleton_append,
        readMembers_memberText _ _ (dropWhile_cons_of_neg (by decide)),
        if_neg (by decide), if_pos rfl, ← map_cons, ih (cons_ne_nil next members)
        (show (next :: members).length < fuel + 1 by omega)]
      rfl

theorem length_le_intercalate :
    members.length ≤ ([','].intercalate (members.map memberText)).length := by
  induction members with
  | nil => exact Nat.le_refl _
  | cons member members ih =>
    have hmember : 0 < (memberText member).length := by
      rw [memberText, length_append, length_cons]
      omega
    cases members with
    | nil =>
      rw [map_cons, map_nil, intercalate_singleton, length_singleton]
      omega
    | cons next members =>
      rw [map_cons, map_cons, intercalate_cons_cons, ← map_cons,
        length_append, length_append, length_cons]
      omega

/-- **An object of strings is read back**, member by member. -/
theorem parse_objectText (hne : members ≠ []) :
    parse (objectText members) = some (.object (members.map fun m => (m.1, .string m.2))) := by
  have hmembers := length_le_intercalate members
  have hlength : (objectText members).length =
      ([','].intercalate (members.map memberText)).length + 2 := by
    rw [objectText, cons_append, length_cons, length_append, length_singleton]
  have hread := readMembers_intercalate members [] hne
    (show members.length < (objectText members).length by omega)
  have hopen : skipWs (objectText members) = objectText members :=
    dropWhile_cons_of_neg (by decide)
  obtain ⟨tail, hquote⟩ : ∃ tail, [','].intercalate (members.map memberText) ++ ['\x7d'] =
      '"' :: tail := by
    rcases members with _ | ⟨member, members⟩
    · exact absurd rfl hne
    cases members with
    | nil =>
      rw [List.map_cons, List.map_nil, List.intercalate_singleton, memberText, List.append_assoc,
        stringText_append]
      exact ⟨_, rfl⟩
    | cons next members =>
      rw [List.map_cons, List.map_cons, List.intercalate_cons_cons, memberText, List.append_assoc,
        List.append_assoc, List.append_assoc, stringText_append]
      exact ⟨_, rfl⟩
  have hfirst : skipWs ('"' :: tail) = '"' :: tail := dropWhile_cons_of_neg (by decide)
  rw [parse, readValue, hopen]
  rw [objectText, cons_append] at hread ⊢
  rw [hquote] at hread ⊢
  dsimp only
  rw [if_neg (by decide), if_pos rfl, hfirst]
  dsimp only
  rw [if_neg (by decide), hread]
  rfl

end

end JsonText
