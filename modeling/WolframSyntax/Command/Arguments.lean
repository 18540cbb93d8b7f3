import WolframSyntax.Text.Numeric

/-!
# Arguments

The options of the command line. An option has a long name, which may be shortened as long as it is
the only one that begins so, and may have a short one of a single letter. The value of an option
follows it, or stands behind an equals sign, or directly behind a short name; short names without
values can be written together. What looks like a negative number or holds a blank is no option,
and behind `--` nothing is. The mark `--` itself may only stand around the source.
-/

namespace WolframSyntax

/-- An option. -/
inductive Flag where
  | help
  | string
  | format
  | out
  | errors
  | resolve
  | config
  | verbose
  deriving DecidableEq, Repr

namespace Flag

/-- Every option. -/
def all : List Flag := [help, string, format, out, errors, resolve, config, verbose]

/-- The long name of an option. -/
def longName : Flag → String
  | help => "--help"
  | string => "--string"
  | format => "--format"
  | out => "--out"
  | errors => "--errors"
  | resolve => "--resolve"
  | config => "--config"
  | verbose => "--verbose"

/-- The letter of an option. -/
def letter? : Flag → Option Char
  | help => some 'h'
  | string => some 's'
  | format => some 'f'
  | out => some 'o'
  | _ => none

/-- Whether an option has a value. -/
def takesValue : Flag → Bool
  | format | out | resolve | config => true
  | _ => false

/-- The option with a letter. -/
def ofLetter? (letter : Char) : Option Flag := all.find? fun flag => flag.letter? == some letter

/-- The options whose long names begin with a text. -/
def withStart (start : List Char) : List Flag :=
  all.filter fun flag => start.isPrefixOf flag.longName.toList

end Flag

/-- What the options ask for. -/
structure Options where
  source : Option String
  isString : Bool
  format : String
  out : Option String
  showErrors : Bool
  resolve : Option String
  config : Option String
  verbose : Bool
  deriving DecidableEq, Repr

namespace Options

/-- The names of formats that can be asked for. -/
def formats : List String := ["fullform", "json"]

/-- What is asked for without options. -/
def standard : Options := ⟨none, false, "fullform", none, false, none, none, false⟩

end Options

/-- Why the arguments ask for nothing that can be done. -/
inductive UsageError where
  | helpWanted
  | ambiguous (argument : String)
  | missingValue (flag : Flag)
  | unwantedValue (flag : Flag)
  | badFormat (name : String)
  | unrecognized (arguments : List String)
  deriving DecidableEq, Repr

namespace UsageError

/-- The summary of the options. -/
def usage : String :=
  "usage: wlparse [-h] [-s] [-f FORMAT] [-o OUTFILE] [--errors] [--resolve NAME]\n"
    ++ "               [--config PATH] [--verbose] [source]"

/-- The report of an error. -/
def message : UsageError → String
  | helpWanted => "help was asked for"
  | ambiguous argument => "ambiguous option: " ++ argument
  | missingValue flag => "argument " ++ flag.longName ++ ": expected one argument"
  | unwantedValue flag => "argument " ++ flag.longName ++ ": ignored explicit argument"
  | badFormat name => "argument --format: invalid choice: " ++ name
  | unrecognized arguments => "unrecognized arguments: " ++ String.intercalate " " arguments

end UsageError

namespace Arguments

/-- What an argument is taken for. A cluster is a short name with what is written behind it. -/
inductive Word where
  | plain (text : String)
  | separator
  | long (flag : Flag) (value : Option String)
  | cluster (flag : Flag) (tail : List Char)
  | unknown (text : String)

/-- A text around its first equals sign. -/
def splitValue (characters : List Char) : List Char × Option (List Char) :=
  match characters.dropWhile (· != '=') with
  | [] => (characters, none)
  | _ :: value => (characters.takeWhile (· != '='), some value)

/-- A text without a line feed at its end. -/
def dropLastLineFeed (characters : List Char) : List Char :=
  if characters.getLast? = some '\n' then characters.dropLast else characters

/-- Whether a text is a minus sign with decimal digits, among which a point may stand. A line feed
behind it does not matter. -/
def isNegativeNumber (characters : List Char) : Bool :=
  match dropLastLineFeed characters with
  | '-' :: rest =>
    let digits := rest.takeWhile Text.isDigit
    match rest.dropWhile Text.isDigit with
    | [] => !digits.isEmpty
    | '.' :: fraction => !fraction.isEmpty && fraction.all Text.isDigit
    | _ => false
  | _ => false

/-- What a text is taken for that begins with a minus sign and names no option. -/
def unnamed (text : String) : Word :=
  if isNegativeNumber text.toList || text.toList.contains ' ' then .plain text else .unknown text

/-- What an argument in front of any separator is taken for. -/
def wordOf (text : String) : Except UsageError Word :=
  match text.toList with
  | '-' :: '-' :: [] => .ok .separator
  | '-' :: '-' :: rest =>
    let (name, value) := splitValue ('-' :: '-' :: rest)
    match Flag.all.find? fun flag => flag.longName.toList == name with
    | some flag => .ok (.long flag (value.map String.ofList))
    | none =>
      match Flag.withStart name with
      | [] => .ok (unnamed text)
      | [flag] => .ok (.long flag (value.map String.ofList))
      | _ => .error (.ambiguous text)
  | '-' :: letter :: tail =>
    match Flag.ofLetter? letter with
    | some flag => .ok (.cluster flag tail)
    | none => .ok (unnamed text)
  | _ => .ok (.plain text)

/-- What the arguments are taken for. -/
def wordsOf : List String → Except UsageError (List Word)
  | [] => .ok []
  | text :: texts => do
    match ← wordOf text with
    | .separator => return .separator :: texts.map .plain
    | word => return word :: (← wordsOf texts)

/-- The options with one more option taken into account. -/
def take (options : Options) (flag : Flag) (value : String) : Except UsageError Options :=
  match flag with
  | .help => .error .helpWanted
  | .string => .ok { options with isString := true }
  | .format =>
    if Options.formats.contains value then .ok { options with format := value }
    else .error (.badFormat value)
  | .out => .ok { options with out := some value }
  | .errors => .ok { options with showErrors := true }
  | .resolve => .ok { options with resolve := some value }
  | .config => .ok { options with config := some value }
  | .verbose => .ok { options with verbose := true }

/-- A cluster that has been taken apart: the options without values in front, the last option with
the value that is written behind it, and letters that name no option. -/
structure Cluster where
  flags : List Flag
  last : Option (Flag × Option String)
  left : Option String

/-- Takes apart what is written behind the letter of an option, after the options `flags`. Where
the option takes no value, further letters may follow. -/
def takeCluster (flags : List Flag) (flag : Flag) : List Char → Except UsageError Cluster
  | [] => .ok ⟨flags, some (flag, none), none⟩
  | letter :: tail =>
    if letter = '=' then
      if flag.takesValue then .ok ⟨flags, some (flag, some (String.ofList tail)), none⟩
      else .error (.unwantedValue flag)
    else if flag.takesValue then
      .ok ⟨flags, some (flag, some (String.ofList (letter :: tail))), none⟩
    else if letter = '-' then .error (.unwantedValue flag)
    else
      match Flag.ofLetter? letter with
      | some next => takeCluster (flags ++ [flag]) next tail
      | none => .ok ⟨flags ++ [flag], none, some (String.ofList ('-' :: letter :: tail))⟩

/-- The options that are asked for so far, and the arguments that nothing could be done with. -/
structure Progress where
  options : Options
  sourceSeen : Bool
  extras : List String

/-- The value of an option, given with it or as the next argument, and the arguments behind it. An
option without a value has an empty one. -/
def valueOf (flag : Flag) (value : Option String) (rest : List Word) :
    Except UsageError (String × List Word) :=
  match value, flag.takesValue, rest with
  | some text, true, rest => .ok (text, rest)
  | some _, false, _ => .error (.unwantedValue flag)
  | none, true, .plain text :: rest => .ok (text, rest)
  | none, true, _ => .error (.missingValue flag)
  | none, false, rest => .ok ("", rest)

/-- Takes an option with its value. -/
def takeFlag (progress : Progress) (flag : Flag) (value : String) : Except UsageError Progress :=
  (take progress.options flag value).map fun options => { progress with options := options }

/-- Notes arguments that nothing can be done with. -/
def refuse (progress : Progress) (texts : List String) : Progress :=
  { progress with extras := progress.extras ++ texts }

/-- Takes the options of a cluster and the value of the last one. -/
def takeParts (progress : Progress) (cluster : Cluster) (rest : List Word) :
    Except UsageError (Progress × List Word) := do
  let (value, rest) ←
    match cluster.last with
    | some (flag, value) => valueOf flag value rest
    | none => .ok ("", rest)
  let progress ← cluster.flags.foldlM (fun progress flag => takeFlag progress flag "") progress
  let progress ←
    match cluster.last with
    | some (flag, _) => takeFlag progress flag value
    | none => .ok progress
  return (refuse progress cluster.left.toList, rest)

/-- Takes the source, if none has been given yet, and with it a mark behind it. -/
def takeSource (progress : Progress) (text : String) (rest : List Word) : Progress × List Word :=
  if progress.sourceSeen then (refuse progress [text], rest)
  else
    let options := { progress.options with source := some text }
    let progress := { progress with options := options, sourceSeen := true }
    match rest with
    | .separator :: rest => (progress, rest)
    | rest => (progress, rest)

/-- Takes the arguments one by one. The budget bounds their number. -/
def takeAll : Nat → Progress → List Word → Except UsageError Progress
  | 0, progress, _ => .ok progress
  | _, progress, [] => .ok progress
  | budget + 1, progress, word :: rest =>
    match word with
    | .plain text =>
      let (progress, rest) := takeSource progress text rest
      takeAll budget progress rest
    | .separator =>
      takeAll budget (if progress.sourceSeen then refuse progress ["--"] else progress) rest
    | .unknown text => takeAll budget (refuse progress [text]) rest
    | .long flag value => do
      let (value, rest) ← valueOf flag value rest
      takeAll budget (← takeFlag progress flag value) rest
    | .cluster flag tail => do
      let (progress, rest) ← takeParts progress (← takeCluster [] flag tail) rest
      takeAll budget progress rest

/-- What a list of arguments asks for. -/
def parse (arguments : List String) : Except UsageError Options := do
  let words ← wordsOf arguments
  let progress ← takeAll words.length ⟨Options.standard, false, []⟩ words
  if progress.extras.isEmpty then return progress.options
  else throw (.unrecognized progress.extras)

end Arguments

end WolframSyntax
