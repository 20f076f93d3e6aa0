import CompositeKeys.Shell.Utility.Launching

/-! Utilities that tell something: of variables, of the system, of the one who asks, and of the time.
-/

namespace CompositeKeys.Shell.Utility
open Files Procedure

def printVariables (name : String) (words : List String) : Procedure Unit :=
  withGiven name 2 { plain := "0", stopsAtOperand := true, long := [("null", '0')] } words
    fun given => do
      let values ← exported
      let ending := if given.has '0' then "\x00" else "\n"
      if given.operands = [] then
        for (name, value) in values do emit (name ++ "=" ++ value ++ ending)
      else
        for operand in given.operands do
          match values.lookup operand with
          | some value => emit (value ++ ending)
          | none => setStatus 1

/-- Tells where programs are. -/
def which (_ : String) (words : List String) : Procedure Unit := do
  let options := words.takeWhile (·.startsWith "-")
  let names := words.drop options.length
  let letters := (options.flatMap fun word => word.toList.drop 1)
  match letters.find? fun letter => !"as".contains letter with
  | some letter =>
    let _ ← write 2 s!"Illegal option -{letter}\nUsage: /usr/bin/which [-as] args\n"
    setStatus 2
  | none =>
    setStatus (if names = [] then 1 else 0)
    let tree := (← get).files
    let searchPath := ((← value? "PATH").getD "")
    for name in names do
      let candidates := if name.contains '/' then [name]
        else (searchPath.splitOn ":").map fun directory =>
          (if directory = "" then "." else directory) ++ "/" ++ name
      let found := candidates.filter fun path =>
        match tree.find (pathOf path) with
        | .ok (place, .file _) => tree.isExecutable place
        | _ => false
      if found = [] then setStatus 1
      unless letters.contains 's' do
        for path in if letters.contains 'a' then found else found.take 1 do emit (path ++ "\n")

/-- Tells something that takes no operands. -/
def tell (text : String) (name : String) (words : List String) : Procedure Unit :=
  withGiven name 1 {} words fun given => do
    match given.operands with
    | [] => emit (text ++ "\n")
    | extra :: _ => extraOperand name extra

/-- Tells who asks. -/
def identity (name : String) (words : List String) : Procedure Unit :=
  withGiven name 1
    { plain := "agGnruzZ"
      long := [("group", 'g'), ("groups", 'G'), ("name", 'n'), ("real", 'r'), ("user", 'u')] } words
    fun given => do
      let choices := (given.options.map Prod.fst).filter ("ugG".contains ·)
      match given.operands.find? fun operand => operand ≠ "root" && operand ≠ "0" with
      | some operand =>
        complain name s!"{quotedWord operand}: no such user"
        setStatus 1
      | none =>
        if 1 < choices.eraseDups.length then
          complain name "cannot print \"only\" of more than one choice"
          setStatus 1
        else if choices = [] && given.hasAny "nr" then
          complain name "cannot print only names or real IDs in default format"
          setStatus 1
        else if choices = [] then emit "uid=0(root) gid=0(root) groups=0(root)\n"
        else emit (if given.has 'n' then "root\n" else "0\n")

/-- Tells what the system is. -/
def systemName (name : String) (words : List String) : Procedure Unit :=
  withGiven name 1
    { plain := "asnrvmpio"
      long := [("all", 'a'), ("kernel-name", 's'), ("nodename", 'n'), ("kernel-release", 'r'),
        ("kernel-version", 'v'), ("machine", 'm'), ("operating-system", 'o')] } words
    fun given => do
      match given.operands with
      | extra :: _ => extraOperand name extra
      | [] =>
        let facts := [('s', "Linux"), ('n', "localhost"), ('r', "6.1.0"), ('v', "#1 SMP"),
          ('m', "x86_64"), ('p', "unknown"), ('i', "unknown"), ('o', "GNU/Linux")]
        let asked := fun letter : Char => given.has letter ||
          (given.has 'a' && !"pi".contains letter) || (given.options = [] && letter = 's')
        emit (" ".intercalate ((facts.filter fun fact => asked fact.1).map Prod.snd) ++ "\n")

/-- Tells which terminal the input comes from. There is none. -/
def terminal (name : String) (words : List String) : Procedure Unit :=
  withGiven name 2 { plain := "s", long := [("silent", 's'), ("quiet", 's')] } words fun given => do
    match given.operands with
    | extra :: _ => suggestHelp name s!"extra operand {quotedWord extra}" 2
    | [] =>
      unless given.has 's' do emit "not a tty\n"
      setStatus 1

/-- Tells how many processors there are. -/
def processors (name : String) (words : List String) : Procedure Unit :=
  withGiven name 1 { valued := "i", long := [("all", 'a'), ("ignore", 'i')] } words fun given => do
    match given.operands with
    | extra :: _ => extraOperand name extra
    | [] => emit "1\n"

/-- Writes a line without an end. -/
def repeatForever (name : String) (words : List String) : Procedure Unit :=
  withGiven name 1 { stopsAtOperand := true } words fun given => do
    let words := if given.operands = [] then ["y"] else given.operands
    let line := " ".intercalate words ++ "\n"
    emit ("".intercalate (List.replicate (70000 / line.length + 1) line))
    let _ ← release
    throw .timeUp

/-- A day of the calendar and a time of it. -/
structure Moment where
  seconds : Int
  nanoseconds : Nat := 0

namespace Moment

/-- The days from the beginning of the year 1970 to a day. -/
def dayNumber (year month day : Int) : Int :=
  let shifted := if month ≤ 2 then year - 1 else year
  let era := shifted / 400
  let yearOfEra := shifted - era * 400
  let dayOfYear := (153 * (month + (if 2 < month then -3 else 9)) + 2) / 5 + day - 1
  let dayOfEra := yearOfEra * 365 + yearOfEra / 4 - yearOfEra / 100 + dayOfYear
  era * 146097 + dayOfEra - 719468

/-- The year, the month and the day of so many days after the beginning of the year 1970. -/
def calendar (days : Int) : Int × Int × Int :=
  let shifted := days + 719468
  let era := shifted / 146097
  let dayOfEra := shifted - era * 146097
  let yearOfEra := (dayOfEra - dayOfEra / 1460 + dayOfEra / 36524 - dayOfEra / 146096) / 365
  let dayOfYear := dayOfEra - (365 * yearOfEra + yearOfEra / 4 - yearOfEra / 100)
  let index := (5 * dayOfYear + 2) / 153
  let day := dayOfYear - (153 * index + 2) / 5 + 1
  let month := if index < 10 then index + 3 else index - 9
  (yearOfEra + era * 400 + (if month ≤ 2 then 1 else 0), month, day)

def weekdays : List String :=
  ["Sunday", "Monday", "Tuesday", "Wednesday", "Thursday", "Friday", "Saturday"]

def months : List String :=
  ["January", "February", "March", "April", "May", "June", "July", "August", "September",
    "October", "November", "December"]

def days (moment : Moment) : Int := moment.seconds / 86400

def ofDay (moment : Moment) : Int := moment.seconds % 86400

def weekday (moment : Moment) : Int := (moment.days + 4) % 7

/-- Digits filled up to a width. -/
def padded (filler : Char) (width : Nat) (value : Int) : String :=
  let text := toString value.natAbs
  let sign := if value < 0 then "-" else ""
  sign ++ .ofList (List.replicate (width - text.length) filler) ++ text

/-- What a letter of a format shows, with how it is filled up: with which letter and how far. -/
def field (moment : Moment) (letter : Char) : Option ((Char × Nat × Int) ⊕ String) :=
  let (year, month, day) := calendar moment.days
  let hour := moment.ofDay / 3600
  let minute := moment.ofDay / 60 % 60
  let second := moment.ofDay % 60
  let half := if hour % 12 = 0 then 12 else hour % 12
  let dayOfYear := moment.days - dayNumber year 1 1
  let monday := (moment.weekday + 6) % 7
  let number := fun (width : Nat) (value : Int) => some (Sum.inl ('0', width, value))
  let blank := fun (width : Nat) (value : Int) => some (Sum.inl (' ', width, value))
  let isoYearWeek : Int × Int :=
    let thursday := moment.days - monday + 3
    let (year, _, _) := calendar thursday
    (year, (thursday - dayNumber year 1 1) / 7 + 1)
  match letter with
  | 'Y' => number 4 year
  | 'C' => number 2 (year / 100)
  | 'y' => number 2 (year % 100)
  | 'm' => number 2 month
  | 'd' => number 2 day
  | 'e' => blank 2 day
  | 'H' => number 2 hour
  | 'I' => number 2 half
  | 'k' => blank 2 hour
  | 'l' => blank 2 half
  | 'M' => number 2 minute
  | 'S' => number 2 second
  | 'N' => number 9 moment.nanoseconds
  | 's' => number 1 moment.seconds
  | 'j' => number 3 (dayOfYear + 1)
  | 'u' => number 1 (if moment.weekday = 0 then 7 else moment.weekday)
  | 'w' => number 1 moment.weekday
  | 'U' => number 2 ((dayOfYear + 7 - moment.weekday) / 7)
  | 'W' => number 2 ((dayOfYear + 7 - monday) / 7)
  | 'V' => number 2 isoYearWeek.2
  | 'G' => number 4 isoYearWeek.1
  | 'g' => number 2 (isoYearWeek.1 % 100)
  | 'q' => number 1 ((month - 1) / 3 + 1)
  | 'a' => some (.inr (.ofList ((weekdays.getD moment.weekday.toNat "").toList.take 3)))
  | 'A' => some (.inr (weekdays.getD moment.weekday.toNat ""))
  | 'b' | 'h' => some (.inr (.ofList ((months.getD (month.toNat - 1) "").toList.take 3)))
  | 'B' => some (.inr (months.getD (month.toNat - 1) ""))
  | 'p' => some (.inr (if hour < 12 then "AM" else "PM"))
  | 'P' => some (.inr (if hour < 12 then "am" else "pm"))
  | 'Z' => some (.inr "UTC")
  | 'z' => some (.inr "+0000")
  | 'n' => some (.inr "\n")
  | 't' => some (.inr "\t")
  | '%' => some (.inr "%")
  | _ => none

/-- The formats that letters stand for. -/
def longer : List (Char × String) :=
  [('D', "%m/%d/%y"), ('F', "%Y-%m-%d"), ('T', "%H:%M:%S"), ('R', "%H:%M"), ('r', "%I:%M:%S %p"),
    ('c', "%a %b %e %H:%M:%S %Y"), ('x', "%m/%d/%y"), ('X', "%H:%M:%S")]

def format (moment : Moment) : Nat → List Char → String
  | 0, _ | _, [] => ""
  | fuel + 1, '%' :: rest =>
    let flags := rest.takeWhile ("-_0^#".contains ·)
    let width := (rest.drop flags.length).takeWhile Char.isDigit
    let after := rest.drop (flags.length + width.length)
    match after with
    | [] => "%" ++ String.ofList rest
    | ':' :: 'z' :: after => "+00:00" ++ moment.format fuel after
    | letter :: after =>
      let asked := (Arithmetic.inBase? 10 width).filter fun _ => width ≠ []
      let text := match moment.field letter, longer.lookup letter with
        | some (.inl (filler, usual, value)), _ =>
          let filler := if flags.contains '_' then ' ' else if flags.contains '0' then '0' else filler
          if flags.contains '-' then toString value else padded filler (asked.getD usual) value
        | some (.inr text), _ =>
          let text := String.ofList (List.replicate (asked.getD 0 - text.length) ' ') ++ text
          if flags.contains '^' then text.toUpper else text
        | none, some format => moment.format fuel format.toList
        | none, none => "%" ++ String.ofList (flags ++ width ++ [letter])
      text ++ moment.format fuel after
  | fuel + 1, letter :: rest => String.singleton letter ++ moment.format fuel rest

/-- The moment that a text spells. -/
def ofText? (text : String) : Option Moment :=
  let letters := text.toList
  let natural := fun text : String => (number? text).map Int.ofNat
  match letters with
  | '@' :: rest =>
    let (isNegative, digits) := match rest with
      | '-' :: digits => (true, digits)
      | digits => (false, digits)
    let whole := digits.takeWhile Char.isDigit
    let fraction := (digits.drop whole.length).drop 1
    let nanoseconds := (Arithmetic.inBase? 10 ((fraction ++ List.replicate 9 '0').take 9)).getD 0
    let isRight := (digits.drop whole.length).head?.all (· = '.') && fraction.all Char.isDigit
    if whole = [] || !isRight then none
    else (Arithmetic.inBase? 10 whole).map fun value =>
      { seconds := if isNegative then -(value : Int) else value, nanoseconds }
  | _ =>
    let text := if text.endsWith "Z" then String.ofList letters.dropLast else text
    let words := ((text.replace "T" " ").splitOn " ").filter fun word =>
      word ≠ "" && word ≠ "UTC" && word ≠ "GMT"
    let ofDay := fun text : String =>
      match (text.splitOn ":").map natural with
      | [some hour, some minute] =>
        if hour < 24 && minute < 60 then some (hour * 3600 + minute * 60) else none
      | [some hour, some minute, some second] =>
        if hour < 24 && minute < 60 && second < 61 then
          some (hour * 3600 + minute * 60 + second) else none
      | _ => none
    let ofDate := fun text : String =>
      match (text.splitOn "-").map natural with
      | [some year, some month, some day] =>
        let number := dayNumber year month day
        if calendar number = (year, month, day) then some (number * 86400) else none
      | _ => none
    match words with
    | [date] => (ofDate date).map fun seconds => { seconds }
    | [date, time] =>
      match ofDate date, ofDay time with
      | some days, some seconds => some { seconds := days + seconds }
      | _, _ => none
    | _ => none

end Moment

/-- Tells a time. The clock stands still but for the time that commands take. -/
def tellTime (name : String) (words : List String) : Procedure Unit :=
  withGiven name 1
    { plain := "uR", valued := "drf", optional := "I"
      long := [("utc", 'u'), ("universal", 'u'), ("date", 'd'), ("iso-8601", 'I'),
        ("rfc-email", 'R'), ("reference", 'r')] } words
    fun given => do
      let now : Moment := { seconds := 1700000000 + (← get).milliseconds / 1000 }
      match given.value? 'r' with
      | some path =>
        if let .error error := ← Procedure.find path then
          complain name s!"{quotedIfNeeded path}: {error.reason}"
          setStatus 1
          return
      | none => pure ()
      let asked := match given.value? 'd' with
        | none => some now
        | some text => if text = "" || text = "now" then some now else Moment.ofText? text
      let formats := [("", "%Y-%m-%d"), ("date", "%Y-%m-%d"), ("hours", "%Y-%m-%dT%H%:z"),
        ("minutes", "%Y-%m-%dT%H:%M%:z"), ("s", "%Y-%m-%dT%H:%M:%S%:z"),
        ("seconds", "%Y-%m-%dT%H:%M:%S%:z")]
      let usual := match given.value? 'I' with
        | some kind => (formats.lookup kind).getD "%Y-%m-%d"
        | none => if given.has 'R' then "%a, %d %b %Y %H:%M:%S %z" else "%a %b %e %H:%M:%S %Z %Y"
      match asked, given.operands with
      | none, _ =>
        complain name ("invalid date " ++ quotedWord ((given.value? 'd').getD ""))
        setStatus 1
      | _, _ :: extra :: _ => extraOperand name extra
      | some moment, operands =>
        let format := operands.headD ("+" ++ usual)
        if format.startsWith "+" then
          emit (moment.format (2 * format.length) (format.toList.drop 1) ++ "\n")
        else
          complain name s!"invalid date {quotedWord format}"
          setStatus 1

end CompositeKeys.Shell.Utility
