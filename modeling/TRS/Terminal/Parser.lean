import TRS.Libc.String

/-!
# The terminal's command parser

`command_parser` of `terminal/tmain.c`. The command line lies in the array `command`, whose bytes
the tokenizer overwrites with the NULs of its tokens; `argv` holds offsets into it. `current` and
`path` are arrays of 100 and 128 bytes, and a string function that runs past the end of one is a
fault.

`TRS.Terminal.Tokens` and `TRS.Terminal.Grammar` are about the tokenizer, `TRS.Terminal.Cd` and
`TRS.Terminal.Buffers` about the commands.
-/

namespace TRS.Terminal
open TRS.Lib TRS.Libc

/-- The characters `' '`, `'\t'`, `'\n'`, `'\r'`, `'"'`, `'.'` and `'/'`. -/
abbrev space : Byte := 0x20#8
abbrev tab : Byte := 0x09#8
abbrev newline : Byte := 0x0A#8
abbrev return_ : Byte := 0x0D#8
abbrev quote : Byte := 0x22#8
abbrev dot : Byte := 0x2E#8
abbrev slash : Byte := 0x2F#8

/-- The size of `current`. -/
abbrev currentSize : Nat := 100

/-- The size of `path`. -/
abbrev pathSize : Nat := 128

/-- The greatest number of tokens. -/
abbrev argMax : Nat := 16

/-- What the loop before a token skips. -/
def isBlank (c : Byte) : Bool := c == space || c == tab || c == newline

/-- What the loop over a quoted token passes. -/
def inQuote (c : Byte) : Bool := c != 0#8 && c != quote

/-- What the loop over a plain token passes. -/
def inWord (c : Byte) : Bool :=
  c != 0#8 && c != space && c != tab && c != newline && c != return_

/-- One round of the tokenizer up to the end of a token, from offset `com` of the line on: the
    offsets of the token and of the byte behind it, or nothing at the end of the line. -/
def nextArg (line : List Byte) (com : Nat) : Except Fault (Option (Nat × Nat)) := do
  let c ← deref (line.drop com)
  if c = 0#8 then .ok none
  else
    let k ← span isBlank (line.drop com)
    let com := com + k
    let c ← deref (line.drop com)
    if c = 0#8 then .ok none
    else
      let start := if c = quote then com + 1 else com
      let k ← span (if c = quote then inQuote else inWord) (line.drop start)
      return some (start, start + k)

/-- The tokenizer with room for `n` more tokens, from offset `com` of the line on: the line with the
    NULs it stores, and `argv`. -/
def parseArgs : (n : Nat) → (line : List Byte) → (com : Nat) → (argv : List Nat) →
    Except Fault (List Byte × List Nat)
  | 0, line, _, argv => .ok (line, argv)
  | n + 1, line, com, argv => do
    let arg ← nextArg line com
    match arg with
    | none => .ok (line, argv)
    | some (start, com) =>
      let c ← deref (line.drop com)
      if c ≠ 0#8 then parseArgs n (line.set com 0#8) (com + 1) (argv ++ [start])
      else parseArgs n line com (argv ++ [start])

/-- What a command does to the console, and the commands that `comands.c` carries out. -/
inductive Action where
  | print (s : List Byte)
  | setColor (fg bg : Nat)
  | clear
  | view
  | help
  | wh (path : List Byte)
  deriving DecidableEq, Repr

/-- The colours `_Sapphire`, `_Yantar` and `_TermBG`. -/
abbrev sapphire : Nat := 0x74c7ec
abbrev yantar : Nat := 0xFFBF00
abbrev termBG : Nat := 0x181513

/-- `char path[128] = "/dsk/"`. -/
def pathInit : List Byte := literal "/dsk/" ++ List.replicate 122 0#8

/-- The branch `wh`: the path it builds. -/
def whPath (current : List Byte) (argc : Nat) (arg1 : List Byte) : Except Fault (List Byte) :=
  if argc > 1 then strcat pathInit arg1 else strcat pathInit current

/-- The branch `cd ..`. -/
def cdUp (current : List Byte) : Except Fault (List Byte) := do
  let last ← strrchr current slash.toNat
  match last with
  | some i => return current.set i 0#8
  | none => return current

/-- `strlen(current) > 0 && current[strlen(current) - 1] != '/'`. -/
def lacksSlash (current : List Byte) : Except Fault Bool := do
  let m ← strlen current
  if m > 0 then
    let c ← deref (current.drop (m - 1))
    return c != slash
  else return false

/-- The branch `cd` with a relative target that fits. -/
def cdRelative (current trgt : List Byte) : Except Fault (List Byte) := do
  let lacks ← lacksSlash current
  if lacks then
    let current ← strcat current (literal "/")
    strcat current trgt
  else strcat current trgt

/-- The branch `cd`. -/
def cdCommand (current : List Byte) (argc : Nat) (trgt : List Byte) :
    Except Fault (List Action × List Byte) :=
  if argc < 2 then do
    let current ← strcpy current (literal "space/user")
    return ([], current)
  else do
    let n ← strlen trgt
    let c ← deref trgt
    if n = 1 ∧ c = dot then return ([], current)
    else
      let up ← strcmp trgt (literal "..")
      if up = 0 then
        let current ← cdUp current
        return ([], current)
      else if c = slash then
        if n < currentSize then
          let current ← strcpy current (trgt.drop 1)
          return ([], current)
        else return ([.print (literal "t3rm: path too long")], current)
      else
        let m ← strlen current
        if m + 1 + n < currentSize then
          let current ← cdRelative current trgt
          return ([], current)
        else return ([], current)

/-- A command that takes no argument. -/
def noArgs (argc : Nat) (actions : List Action) : List Action :=
  if argc > 1 then [.print (literal "t3rm: too many arguments")] else actions

/-- `command_parser` on the tokens of a line: what it does, and `current` after it. -/
def runArgs (current : List Byte) (argc : Nat) (arg0 arg1 : List Byte) :
    Except Fault (List Action × List Byte) := do
  let isView ← strcmp arg0 (literal "view")
  if isView = 0 then return (noArgs argc [.view], current)
  else
    let isClr ← strcmp arg0 (literal "clr")
    if isClr = 0 then return (noArgs argc [.clear], current)
    else
      let isPwd ← strcmp arg0 (literal "pwd")
      if isPwd = 0 then
        return (noArgs argc [.setColor sapphire termBG, .print (literal "\n\t"), .print current,
          .setColor yantar termBG], current)
      else
        let isWh ← strcmp arg0 (literal "wh")
        if isWh = 0 then
          let path ← whPath current argc arg1
          return ([.wh path], current)
        else
          let isCd ← strcmp arg0 (literal "cd")
          if isCd = 0 then cdCommand current argc arg1
          else
            let isHelp ← strcmp arg0 (literal "help")
            if isHelp = 0 then return (noArgs argc [.print (literal "\n"), .help], current)
            else return ([.print (literal "\nt3rm: unknown command")], current)

/-- `command_parser(com)`. -/
def commandParser (current line : List Byte) : Except Fault (List Action × List Byte) := do
  let c ← deref line
  if c = 0#8 then return ([], current)
  else
    let (line, argv) ← parseArgs argMax line 0 []
    match argv with
    | [] => return ([], current)
    | p :: ps => runArgs current (ps.length + 1) (line.drop p) (line.drop (ps.headD 0))

/-- `current` when the terminal starts. -/
def currentInit : List Byte := literal "space/user" ++ List.replicate 89 0#8

end TRS.Terminal
