import TcpLike.Newudpl

/-!
# The command line of the link emulator

`parseCmdLine` and the functions it reads its arguments with, over what `getopt` gives: the options
with their arguments, and whether an operand is left behind them. `strtol` and `strtok` are those of
the C library, with a `long` of 64 bits. Host names are resolved, and fractions read, outside. Of
the title the program begins with, what has the form of an argument is here too.
-/

namespace TcpLike

def STRSIZE : ℕ := 1024

/-! ## Numbers -/

/-- `isspace`. -/
def isspace (c : Char) : Bool := c = ' ' ∨ ('\t' ≤ c ∧ c ≤ '\r')

/-- The digits at the head of `s` read on from `n`, with what is behind them. -/
def readDigits (radix : ℕ) : ℕ → List Char → ℕ × List Char
  | n, [] => (n, [])
  | n, c :: s =>
    match digit radix c with
    | some d => readDigits radix (n * radix + d) s
    | none => (n, c :: s)

/-- An optional sign: whether it is a minus. -/
def readSign : List Char → Bool × List Char
  | '-' :: s => (true, s)
  | '+' :: s => (false, s)
  | s => (false, s)

/-- The radix a number is read in: 0 leaves it to a 0x or a 0 before the number. -/
def readRadix (radix : ℕ) (s : List Char) : ℕ × List Char :=
  match s with
  | '0' :: x :: c :: s' =>
    if (radix = 0 ∨ radix = 16) ∧ (x = 'x' ∨ x = 'X') ∧ (digit 16 c).isSome then (16, c :: s')
    else if radix = 0 then (8, s) else (radix, s)
  | '0' :: _ => if radix = 0 then (8, s) else (radix, s)
  | _ => if radix = 0 then (10, s) else (radix, s)

/-- `strtol`, with what is behind the number: the whole text if there is none. -/
def strtol (string : List Char) (radix : ℕ) : ℤ × List Char :=
  let (minus, s) := readSign (string.dropWhile isspace)
  let (radix, s) := readRadix radix s
  match s with
  | [] => (0, string)
  | c :: _ =>
    if (digit radix c).isSome then
      let (n, rest) := readDigits radix 0 s
      (max (-2 ^ 63) (min (if minus then -(n : ℤ) else n) (2 ^ 63 - 1)), rest)
    else (0, string)

/-- `str2l`. What is behind a number is looked at only if the number is 0. -/
def str2l (string : Option (List Char)) (radix : ℕ) (min max : ℤ) : Option ℤ :=
  match string with
  | none => none
  | some string =>
    if 36 < radix ∨ radix = 1 then none
    else if max < min then none
    else
      let (lInt, endptr) := strtol string radix
      if lInt = 0 ∧ (string = endptr ∨ endptr ≠ []) then none
      else if lInt < min ∨ max < lInt then none
      else some lInt

/-- `strtok`: the next token, and what is left to look for others in. -/
def strtok (delim s : List Char) : Option (List Char) × List Char :=
  match s.dropWhile (· ∈ delim) with
  | [] => (none, [])
  | s => (some (s.takeWhile (· ∉ delim)), (s.dropWhile (· ∉ delim)).tail)

/-! ## Arguments -/

/-- How the program ends on a command line it does not take. -/
inductive Exit
  /-- it prints its usage -/
  | usage
  /-- a string is read behind its end -/
  | undefined
  deriving DecidableEq, Repr

/-- An option whose reading has come back with -1. -/
def orUsage {α : Type} : Option α → Except Exit α
  | some a => .ok a
  | none => .error .usage

/-- `getPorts`: a port left out stays as it is. -/
def getPorts (readPort writePort : ℕ) (optarg : List Char) : Option (ℕ × ℕ) :=
  if STRSIZE ≤ optarg.length then none
  else do
    let (pStr, buff) := strtok [':'] optarg
    if optarg.head? = some ':' then
      let port ← str2l pStr 0 0x400 0xFFFF
      return (readPort, port.toNat)
    else
      let port ← str2l pStr 0 0x400 0xFFFF
      match (strtok [':'] buff).1 with
      | none => return (port.toNat, writePort)
      | some pStr =>
        let port' ← str2l (some pStr) 0 0x400 0xFFFF
        return (port.toNat, port'.toNat)

/-- `getHost`. An address of 0 is one that could not be found. -/
def getHost (host2ip : List Char → ℕ) (host : Host) (optarg : List Char) : Option Host :=
  if STRSIZE ≤ optarg.length then none
  else do
    let (pStr, buff) := strtok [':', '/'] optarg
    let ip := (pStr.map host2ip).getD host.s_addr
    if pStr.isSome ∧ ip = 0 then none
    else
      match (strtok [':', '/'] buff).1 with
      | none => return ⟨ip, host.sin_port⟩
      | some pStr =>
        if pStr.head? = some '*' then return ⟨ip, 0⟩
        else
          let port ← str2l (some pStr) 0 0 0xFFFF
          return ⟨ip, port.toNat⟩

/-- The end of `getSec`, the seconds being read. The text behind the point is put over six zeros.
One of more than six characters takes the end of that string away, and if it is a number to its end
it is read on behind it. -/
def getUsec (s : Timeval) (sec : ℤ) (buff : List Char) : Except Exit Timeval :=
  match (strtok ['.'] buff).1 with
  | none => .ok ⟨sec, s.tv_usec⟩
  | some pStr =>
    if 6 < pStr.length ∧ (readDigits 10 0 (readSign (pStr.dropWhile isspace)).2).2 = [] then
      .error .undefined
    else do
      let tmp := pStr ++ List.replicate (6 - pStr.length) '0'
      let usec ← orUsage (str2l (some tmp) 10 0 999999)
      return ⟨sec, usec⟩

/-- `getSec`. -/
def getSec (s : Timeval) (optarg : List Char) (maxSec : ℤ) : Except Exit Timeval :=
  if STRSIZE ≤ optarg.length then .error .usage
  else
    match strtok ['.'] optarg with
    | (none, buff) => getUsec s s.tv_sec buff
    | (some pStr, buff) => do
      let sec ← orUsage (str2l (some pStr) 10 0 maxSec)
      getUsec s sec buff

/-- `getEther`. -/
def getEther (optarg : List Char) : Option ℕ := do
  let l ← str2l (some optarg) 10 1 3
  return if l = 1 then 10000 else if l = 2 then 100000 else 1000000

/-! ## Options -/

section Options

-- `strtod` stands for what is made of its number: nothing of 0, of others the `float` it becomes.
variable (host2ip : List Char → ℕ) (strtod : List Char → Option CFloat)

/-- An option, as `getopt` returns it. -/
def parseOption (o : Options) (opt : Char × List Char) : Except Exit Options :=
  let optarg := opt.2
  match opt.1 with
  | 'p' => do
    let (readPort, writPort) ← orUsage (getPorts o.readPort o.writPort optarg)
    return { o with readPort := readPort, writPort := writPort }
  | 'i' => do return { o with srceHost := ← orUsage (getHost host2ip o.srceHost optarg) }
  | 'o' => do return { o with destHost := ← orUsage (getHost host2ip o.destHost optarg) }
  | 'd' => do return { o with delay := ← getSec o.delay optarg MAX_DELAYSEC }
  | 's' => do return { o with speed := (← orUsage (str2l (some optarg) 10 1 MAX_KBPS)).toNat }
  | 'e' => do return { o with ether := ← orUsage (getEther optarg) }
  | 'q' => do
    return { o with inQBufSize := (← orUsage (str2l (some optarg) 0 1 MAX_QBUFSIZE)).toNat }
  | 'B' => do
    return { o with bitError := (← orUsage (str2l (some optarg) 10 0 (BITERRDENOM - 1))).toNat }
  | 'L' => do return { o with randomLoss := (← orUsage (str2l (some optarg) 10 0 99)).toNat }
  | 'C' => do return { o with gilCondLoss := ← orUsage (strtod optarg) }
  | 'U' => do return { o with gilUncondLoss := ← orUsage (strtod optarg) }
  | 'O' => do return { o with outOfOrder := (← orUsage (str2l (some optarg) 10 0 99)).toNat }
  | 'm' => return { o with calcMode := 1 }
  | 'v' => return { o with verbose := o.verbose + 1 }
  | '?' | 'h' => throw .usage
  | _ => return o

/-- `parseCmdLine`. -/
def parseCmdLine (o : Options) (opts : List (Char × List Char)) (operands : Bool) :
    Except Exit Options := do
  let o ← opts.foldlM (parseOption host2ip strtod) o
  if operands then throw .usage else return o

end Options

/-! ## The title -/

/-- The delay as `printTitle` prints it, in seconds. It is not negative. -/
def delayText (delay : Timeval) : List Char :=
  Nat.toDigits 10 delay.tv_sec.toNat ++ '.' :: (Nat.toDigits 10 delay.tv_usec.toNat).leftpad 6 '0'

end TcpLike
