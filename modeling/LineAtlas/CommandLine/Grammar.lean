import LineAtlas.Text.Integer

/-!
# Words of a command line

A command line is read against the options it may have. An option may be shortened as long as it stays
unique, may carry its value after an equals sign, and flags of one letter may be run together. A
negative number is no option, nor is a word with a space in it unless it starts like one. After `--` no
word is an option.
-/

namespace LineAtlas.CommandLine

open Text

structure ValueForm where
  placeholder : String
  accepts : String → Bool := fun _ => true

structure OptionForm where
  names : List String
  description : String
  value : Option ValueForm := none

namespace OptionForm

def key (o : OptionForm) : String :=
  o.names.headD ""

def takesValue (o : OptionForm) : Bool :=
  o.value.isSome

def help : OptionForm where
  names := ["-h", "--help"]
  description := "show this help message and exit"

end OptionForm

inductive Word
  | plain (text : String)
  | separator
  | option (form : OptionForm) (name : String) (attached : Option String)
  | unknownOption

def byName (forms : List OptionForm) : List (String × OptionForm) :=
  forms.flatMap fun o => o.names.map (·, o)

def startsWith (lead word : String) : Bool :=
  (after? lead.toList word.toList).isSome

def splitEquals? (word : String) : Option (String × String) :=
  match word.toList.dropWhile (· != '=') with
  | [] => none
  | _ :: rest => some (String.ofList (word.toList.takeWhile (· != '=')), String.ofList rest)

/-- Whether a word is a negative number, whole or with a decimal point. One line break at its end does not
count. -/
def isNegativeNumber (word : String) : Bool :=
  match word.toList with
  | '-' :: cs =>
    let cs := (before? "\n" cs).getD cs
    let whole := cs.takeWhile isDigit
    match cs.dropWhile isDigit with
    | [] => !whole.isEmpty
    | '.' :: part => !part.isEmpty && part.all isDigit
    | _ => false
  | _ => false

def abbreviated (forms : List OptionForm) (word : String) : List Word :=
  if startsWith "--" word then
    let (lead, value) := match splitEquals? word with
      | some (lead, value) => (lead, some value)
      | none => (word, none)
    (byName forms).filterMap fun (name, o) =>
      if startsWith lead name then some (.option o name value) else none
  else
    (byName forms).filterMap fun (name, o) =>
      if name = String.ofList (word.toList.take 2) then
        some (.option o name (some (String.ofList (word.toList.drop 2))))
      else if startsWith word name then some (.option o name none)
      else none

def spelledOut? (forms : List OptionForm) (word : String) : Option Word :=
  match (byName forms).find? fun (name, _) => name = word with
  | some (name, o) => some (.option o name none)
  | none => do
    let (lead, value) ← splitEquals? word
    let (name, o) ← (byName forms).find? fun (name, _) => name = lead
    return .option o name (some value)

/-- What a word before the separator is; `none` when it could be several options. -/
def classify? (forms : List OptionForm) (word : String) : Option Word :=
  if !startsWith "-" word || word = "-" then some (.plain word)
  else
    match spelledOut? forms word with
    | some w => some w
    | none =>
      match abbreviated forms word with
      | [w] => some w
      | _ :: _ :: _ => none
      | [] =>
        if isNegativeNumber word || word.toList.contains ' ' then some (.plain word)
        else some .unknownOption

def classifyAll? (forms : List OptionForm) : List String → Option (List (Word × String))
  | [] => some []
  | word :: rest =>
    if word = "--" then some ((.separator, word) :: rest.map fun w => (.plain w, w))
    else do return (← classify? forms word, word) :: (← classifyAll? forms rest)

inductive Halt
  | misuse
  | help (command : Option String)
  deriving DecidableEq, Repr

def Halt.within (command : String) : Halt → Halt
  | .misuse => .misuse
  | .help _ => .help (some command)

/-- The value of an option or argument. It is missing where `--` stands in its place, which is taken for a
separator and dropped. -/
abbrev Value := Option String

abbrev Given := List (String × Value)

namespace Given

def last? (g : Given) (key : String) : Option Value :=
  (g.reverse.find? fun (k, _) => k = key).map Prod.snd

def all (g : Given) (key : String) : List Value :=
  g.filterMap fun (k, v) => if k = key then some v else none

def has (g : Given) (key : String) : Bool :=
  g.any fun (k, _) => k = key

end Given

/-- An option with its value, if the value is accepted; a missing one always is. -/
def giveValue (o : OptionForm) (value : String) : Except Halt Given :=
  if value = "--" then .ok [(o.key, none)]
  else if o.value.any (·.accepts value) then .ok [(o.key, some value)]
  else .error .misuse

def giveFlag (o : OptionForm) : Except Halt Given :=
  if o.key = OptionForm.help.key then .error (.help none) else .ok [(o.key, none)]

/-- The flags of one letter that are run together in a word, the first of them spelled `name`. -/
def cluster? (forms : List OptionForm) (o : OptionForm) (name : String) :
    List Char → Option (List OptionForm)
  | [] => none
  | c :: cs =>
    if startsWith "--" name then none
    else
      match (byName forms).find? fun (n, _) => n = String.ofList ['-', c] with
      | none => none
      | some (n, next) =>
        if next.takesValue then none
        else if cs.isEmpty then some [o, next]
        else (cluster? forms next n cs).map (o :: ·)

def giveAttached (forms : List OptionForm) (o : OptionForm) (name value : String) :
    Except Halt Given :=
  if o.takesValue then giveValue o value
  else
    match cluster? forms o name value.toList with
    | none => .error .misuse
    | some flags => flags.flatMapM giveFlag

/-- An option without an attached value: its value is the next word, which must be no option. -/
def giveNext (o : OptionForm) (rest : List (Word × String)) :
    Except Halt (Given × List (Word × String)) :=
  if o.takesValue then
    match rest with
    | (.plain value, _) :: rest => do return (← giveValue o value, rest)
    | _ => .error .misuse
  else do return (← giveFlag o, rest)

theorem length_le_of_giveNext {o : OptionForm} {rest : List (Word × String)}
    {r : Given × List (Word × String)} (h : giveNext o rest = .ok r) :
    r.2.length ≤ rest.length := by
  unfold giveNext at h
  split at h
  · split at h
    · rename_i value _ rest
      cases hv : giveValue o value with
      | error e => simp [hv, bind, Except.bind] at h
      | ok g =>
        simp only [hv, bind, Except.bind, pure, Except.pure, Except.ok.injEq] at h
        subst h
        simp
    · simp at h
  · cases hf : giveFlag o with
    | error e => simp [hf, bind, Except.bind] at h
    | ok g =>
      simp only [hf, bind, Except.bind, pure, Except.pure, Except.ok.injEq] at h
      subst h
      simp

end LineAtlas.CommandLine
