/-
**Dotenv texts**: variables and their values, one statement after the other.

A statement is a name and, after an equals sign, a value; the word that exports a variable may stand
before it and a comment after it. All line ends count alike. Names may stand in single quotes and
values in either kind; quoted text may go over several lines, and a backslash in it takes the next
character along. A statement that does not end with its line is left out, and reading goes on with
the next line (`length_nextLine_statement_lt` is why it ends). A value may refer to variables that
are set before it or in the environment.
-/

import CallGraph.Table
import CallGraph.Text.Blank
import CallGraph.Text.Quoted

namespace CallGraph.Settings.Dotenv

/-- A variable and its value; none when the variable is only named. -/
structure Binding where
  name : String
  value : Option String

/-! ### Lines -/

/-- A text whose lines all end with a line feed: a carriage return counts as one, alone or before a
line feed. -/
def unifyLineEnds : List Char → List Char
  | [] => []
  | '\r' :: '\n' :: rest => '\n' :: unifyLineEnds rest
  | c :: rest => (if c = '\r' then '\n' else c) :: unifyLineEnds rest

/-- Whether a character ends a line. -/
def isLineBreak (c : Char) : Bool := c = '\n'

/-- Whether a character is blank and does not end a line. -/
def isPadding (c : Char) : Bool := Text.isBlank c && !isLineBreak c

/-- What follows the line that the reader stands in. -/
def nextLine : List Char → List Char
  | [] => []
  | c :: rest => if isLineBreak c then rest else nextLine rest

theorem length_nextLine_le (cs : List Char) : (nextLine cs).length ≤ cs.length - 1 := by
  induction cs with
  | nil => exact Nat.le_refl 0
  | cons c rest ih =>
    rw [nextLine]
    split
    · exact Nat.le_refl _
    · simp only [List.length_cons]
      omega

/-- Whether nothing but padding and a comment is left of a line. -/
def isLineEnd (cs : List Char) : Bool :=
  match cs.dropWhile isPadding with
  | [] => true
  | c :: _ => isLineBreak c || c = '#'

/-! ### Names -/

/-- The word that exports a variable. -/
def exportWord : List Char := ['e', 'x', 'p', 'o', 'r', 't']

/-- A statement without the word that exports its variable. -/
def skipExport (cs : List Char) : List Char :=
  let after := cs.drop exportWord.length
  if cs.take exportWord.length = exportWord ∧ after.head?.any isPadding then
    after.dropWhile isPadding
  else
    cs

theorem length_skipExport_le (cs : List Char) : (skipExport cs).length ≤ cs.length := by
  simp only [skipExport]
  split
  · have dropped := (List.dropWhile_suffix (l := cs.drop exportWord.length) isPadding).length_le
    have shorter : (cs.drop exportWord.length).length ≤ cs.length :=
      (List.drop_suffix _ cs).length_le
    omega
  · exact Nat.le_refl _

/-- Whether a character can stand in a name without quotes. -/
def isNameChar (c : Char) : Bool := c ≠ '=' && c ≠ '#' && !Text.isBlank c

/-- Splits off a first part that is not empty, and leaves out `skip` characters after it. -/
def splitPart (part : List Char) (skip : Nat) (cs : List Char) : Option (String × List Char) :=
  if part.isEmpty ∨ cs.length < part.length + skip then none
  else some (String.ofList part, cs.drop (part.length + skip))

theorem length_splitPart_le {part cs after : List Char} {skip : Nat} {name : String}
    (split : splitPart part skip cs = some (name, after)) : after.length ≤ cs.length := by
  unfold splitPart at split
  split at split
  · cases split
  · cases split
    exact (List.drop_suffix _ cs).length_le

/-- Reads a name, with or without single quotes around it. -/
def readName : List Char → Option (String × List Char)
  | [] => none
  | c :: rest =>
    if c = Text.apostrophe then splitPart (rest.takeWhile (· ≠ Text.apostrophe)) 1 rest
    else splitPart ((c :: rest).takeWhile isNameChar) 0 (c :: rest)

theorem length_readName_le {cs after : List Char} {name : String}
    (read : readName cs = some (name, after)) : after.length ≤ cs.length := by
  unfold readName at read
  split at read
  · cases read
  · split at read
    · have shorter := length_splitPart_le read
      simp only [List.length_cons]
      omega
    · exact length_splitPart_le read

/-! ### Values -/

/-- A kind of quotes: the mark, and the characters that a backslash changes. -/
structure QuoteStyle where
  mark : Char
  escape? : Char → Option Char

/-- Between single quotes only quotes and backslashes are escaped. -/
def single : QuoteStyle where
  mark := Text.apostrophe
  escape? c := if c = Text.apostrophe ∨ c = Text.backslash then some c else none

/-- Between double quotes the controls from bell to carriage return have escapes as well. -/
def double : QuoteStyle where
  mark := Text.doubleQuote
  escape?
    | 'a' => some '\x07'
    | 'b' => some '\x08'
    | 't' => some '\x09'
    | 'n' => some '\x0a'
    | 'v' => some '\x0b'
    | 'f' => some '\x0c'
    | 'r' => some '\x0d'
    | c => if c = Text.doubleQuote then some c else single.escape? c

/-- What a backslash and the character after it stand for: themselves when they are no escape. -/
def QuoteStyle.decode (style : QuoteStyle) (c : Char) : List Char :=
  match style.escape? c with
  | some meant => [meant]
  | none => [Text.backslash, c]

/-- Reads up to the closing quote. -/
def readQuoted (style : QuoteStyle) : List Char → Option (List Char × List Char)
  | [] => none
  | ['\x5c'] => none
  | '\x5c' :: c :: rest =>
    (readQuoted style rest).map fun (inside, after) => (style.decode c ++ inside, after)
  | c :: rest =>
    if c = style.mark then some ([], rest)
    else (readQuoted style rest).map fun (inside, after) => (c :: inside, after)

theorem length_readQuoted_le (style : QuoteStyle) {cs inside after : List Char}
    (read : readQuoted style cs = some (inside, after)) : after.length ≤ cs.length := by
  fun_induction readQuoted style cs generalizing inside with
  | case1 => cases read
  | case2 => cases read
  | case3 c rest ih =>
    obtain ⟨⟨before, rest'⟩, found, same⟩ := Option.map_eq_some_iff.mp read
    cases same
    have shorter := ih found
    simp only [List.length_cons]
    omega
  | case4 c rest =>
    cases read
    exact Nat.le_succ _
  | case5 c rest _ _ _ ih =>
    obtain ⟨⟨before, rest'⟩, found, same⟩ := Option.map_eq_some_iff.mp read
    cases same
    exact Nat.le_succ_of_le (ih found)

/-- A value without quotes ends before a number sign with a blank before it. -/
def beforeComment : List Char → List Char
  | [] => []
  | c :: rest =>
    if Text.isBlank c && (rest.dropWhile Text.isBlank).head? = some '#' then []
    else c :: beforeComment rest

/-- Reads a value without quotes, which takes the rest of the line. -/
def readPlain (cs : List Char) : String × List Char :=
  (Text.trim (String.ofList (beforeComment (cs.takeWhile fun c => !isLineBreak c))),
    cs.dropWhile fun c => !isLineBreak c)

theorem length_readPlain_le (cs : List Char) : (readPlain cs).2.length ≤ cs.length :=
  (List.dropWhile_suffix _).length_le

/-- The kind of quotes that a character opens. -/
def quoteOf? (c : Char) : Option QuoteStyle :=
  [single, double].find? fun style => style.mark = c

/-- Reads a value, with padding before it. -/
def readValue (cs : List Char) : Option (String × List Char) :=
  match cs.dropWhile isPadding with
  | [] => some (readPlain cs)
  | c :: rest =>
    match quoteOf? c with
    | some style =>
      (readQuoted style rest).map fun (inside, after) => (String.ofList inside, after)
    | none => some (readPlain cs)

theorem length_readValue_le {cs after : List Char} {value : String}
    (read : readValue cs = some (value, after)) : after.length ≤ cs.length := by
  have plain : some (readPlain cs) = some (value, after) → after.length ≤ cs.length := by
    intro read
    have stop : (readPlain cs).2 = after := congrArg Prod.snd (Option.some.inj read)
    rw [← stop]
    exact length_readPlain_le cs
  have padded := (List.dropWhile_suffix (l := cs) isPadding).length_le
  unfold readValue at read
  split at read
  · exact plain read
  · rename_i c rest start
    rw [start, List.length_cons] at padded
    split at read
    · rename_i style _
      obtain ⟨⟨inside, rest'⟩, found, same⟩ := Option.map_eq_some_iff.mp read
      cases same
      have shorter := length_readQuoted_le style found
      omega
    · exact plain read

/-! ### Statements -/

/-- Reads what follows a name: an equals sign and a value, or nothing. -/
def readRest (name : String) (cs : List Char) : Option Binding × List Char :=
  match cs.dropWhile isPadding with
  | '=' :: given =>
    match readValue given with
    | some (value, stop) => (some ⟨name, some value⟩, stop)
    | none => (none, given)
  | stop => (some ⟨name, none⟩, stop)

theorem length_readRest_le (name : String) (cs : List Char) :
    (readRest name cs).2.length ≤ cs.length := by
  have padded := (List.dropWhile_suffix (l := cs) isPadding).length_le
  unfold readRest
  split
  · rename_i given equal
    rw [equal, List.length_cons] at padded
    split
    · rename_i value stop read
      have shorter := length_readValue_le read
      simp only
      omega
    · simp only
      omega
  · exact padded

/-- The variable that a statement sets, and where its reader stops. -/
def statement (cs : List Char) : Option Binding × List Char :=
  match readName (skipExport cs) with
  | some (name, after) => readRest name after
  | none => (none, skipExport cs)

theorem length_statement_le (cs : List Char) : (statement cs).2.length ≤ cs.length := by
  have exported := length_skipExport_le cs
  unfold statement
  split
  · rename_i name after read
    have named := length_readName_le read
    have rest := length_readRest_le name after
    omega
  · exact exported

/-- The line after a statement starts behind it. -/
theorem length_nextLine_statement_lt {cs rest : List Char} {c : Char}
    (start : cs.dropWhile Text.isBlank = c :: rest) :
    (nextLine (statement (c :: rest)).2).length < cs.length := by
  have skipped := (List.dropWhile_suffix (l := cs) Text.isBlank).length_le
  have stopped := length_statement_le (c :: rest)
  have behind := length_nextLine_le (statement (c :: rest)).2
  rw [start] at skipped
  simp only [List.length_cons] at skipped stopped
  omega

/-- The variables that the statements of a text set, in order. -/
def statements (cs : List Char) : List Binding :=
  match _start : cs.dropWhile Text.isBlank with
  | [] => []
  | c :: rest =>
    let read := statement (c :: rest)
    let later := statements (nextLine read.2)
    if isLineEnd read.2 then read.1.toList ++ later else later
termination_by cs.length
decreasing_by exact length_nextLine_statement_lt _start

/-! ### References -/

/-- A reference to a variable, and the text to take where there is no such variable. -/
structure Reference where
  name : String
  fallback : String

/-- Reads a reference: a dollar sign and, in braces, a name and perhaps a fallback. -/
def reference? : List Char → Option (Reference × List Char)
  | '$' :: '\x7b' :: rest =>
    let name := rest.takeWhile fun c => c ≠ '\x7d' && c ≠ ':'
    match rest.dropWhile fun c => c ≠ '\x7d' && c ≠ ':' with
    | '\x7d' :: after => some (⟨String.ofList name, ""⟩, after)
    | ':' :: '-' :: given =>
      match given.dropWhile (· ≠ '\x7d') with
      | _ :: after =>
        some (⟨String.ofList name, String.ofList (given.takeWhile (· ≠ '\x7d'))⟩, after)
      | [] => none
    | _ => none
  | _ => none

theorem length_reference?_lt {cs after : List Char} {reference : Reference}
    (read : reference? cs = some (reference, after)) : after.length < cs.length := by
  unfold reference? at read
  split at read
  · rename_i rest
    have named := (List.dropWhile_suffix (l := rest) (fun c => c ≠ '\x7d' && c ≠ ':')).length_le
    simp only at read
    split at read
    · rename_i equal
      cases read
      rw [equal, List.length_cons] at named
      simp only [List.length_cons]
      omega
    · rename_i given equal
      have given_le := (List.dropWhile_suffix (l := given) (· ≠ '\x7d')).length_le
      split at read
      · rename_i closed
        cases read
        rw [equal] at named
        rw [closed] at given_le
        simp only [List.length_cons] at named given_le ⊢
        omega
      · cases read
    · cases read
  · cases read

/-- A value with its references replaced by what they mean. -/
def expand (meaning : Reference → List Char) (cs : List Char) : List Char :=
  match _found : reference? cs with
  | some (reference, after) => meaning reference ++ expand meaning after
  | none =>
    match cs with
    | [] => []
    | c :: rest => c :: expand meaning rest
termination_by cs.length
decreasing_by
  · exact length_reference?_lt _found
  · exact Nat.lt_succ_self _

/-! ### Variables -/

/-- What a reference means: the value set before it, else that of the environment, else its
fallback. A variable that is only named is empty. -/
def meaning (environment : List (String × String)) (table : Table String (Option String))
    (reference : Reference) : List Char :=
  match table.find? reference.name, environment.lookup reference.name with
  | some value, _ => (value.getD "").toList
  | none, some value => value.toList
  | none, none => reference.fallback.toList

/-- Sets a variable. -/
def set (environment : List (String × String)) (table : Table String (Option String))
    (binding : Binding) : Table String (Option String) :=
  table.put binding.name
    (binding.value.map fun value =>
      String.ofList (expand (meaning environment table) value.toList))

/-- A text without the byte-order mark at its start. -/
def skipMark : List Char → List Char
  | '\ufeff' :: rest => rest
  | cs => cs

/-- The variables that a text sets in an environment; a later statement replaces the value of an
earlier one. -/
def variablesOf (environment : List (String × String)) (text : String) :
    Table String (Option String) :=
  (statements (unifyLineEnds (skipMark text.toList))).foldl (set environment) .empty

end CallGraph.Settings.Dotenv
