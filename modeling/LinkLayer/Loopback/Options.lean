/-!
The command line of the loopback run. Options take a value in the next word, behind an equals sign,
or, after a single letter, in the same word. Nothing but options is accepted, each at most once.
-/
namespace LinkLayer.Loopback

/-- What a run is told. -/
structure Options where
  /-- Datagrams that the host sends. -/
  count : Nat := 4
  /-- Payload length of each of them. -/
  payload : Nat := 64
  /-- Transfers that each interface keeps in its trace. -/
  trace : Nat := 0
  /-- Whether every frame is logged. -/
  verbose : Bool := false
deriving DecidableEq, Repr

namespace Options

/-- Options that take a number. -/
inductive Setting where
  | count
  | payload
  | trace
deriving DecidableEq, Repr

/-- Why there are no options to run with. -/
inductive Stop where
  /-- The version was asked for. -/
  | version
  | usage
deriving DecidableEq, Repr

/-- An option as it was given. One that got no value keeps its default. -/
inductive Item where
  | verbose
  | setting (setting : Setting) (value : Option (List Char))
deriving DecidableEq, Repr

def Setting.ofLetter? : Char → Option Setting
  | 'c' => some .count
  | 'p' => some .payload
  | 't' => some .trace
  | _ => none

def Setting.ofName? (name : List Char) : Option Setting :=
  if name = "count".toList then some .count
  else if name = "payload".toList then some .payload
  else if name = "trace".toList then some .trace
  else none

/-- What one word gives: its items, and the option that still needs a value. -/
structure Word where
  items : List Item := []
  pending : Option Setting := none
deriving DecidableEq, Repr

/-- Reads letters behind a single dash. The first one that takes a value takes the rest of the word
as it, without equals signs in front. -/
def letters : List Char → Except Stop Word
  | [] => .ok {}
  | c :: rest =>
    match Setting.ofLetter? c with
    | some setting =>
      if rest.isEmpty then .ok { pending := some setting }
      else .ok { items := [.setting setting (some (rest.dropWhile (· == '=')))] }
    | none =>
      if c = 'V' then .error .version
      else if c = 'v' then do
        let word ← letters rest
        .ok { word with items := .verbose :: word.items }
      else .error .usage

/-- Reads a name behind dashes, and a value behind the first equals sign. -/
def long (word : List Char) : Except Stop Word :=
  let body := word.dropWhile (· == '-')
  let name := body.takeWhile (· != '=')
  let value := body.dropWhile (· != '=')
  match Setting.ofName? name with
  | some setting =>
    if value.isEmpty then .ok { pending := some setting }
    else .ok { items := [.setting setting (some (value.dropWhile (· == '=')))] }
  | none =>
    if name = "version".toList then .error .version
    else if name = "verbose".toList then .ok { items := [.verbose] }
    else .error .usage

/-- A word that cannot be a value: a dash with something behind it. -/
def startsOption : List Char → Bool
  | '-' :: _ :: _ => true
  | _ => false

def word : List Char → Except Stop Word
  | '-' :: '-' :: rest => long rest
  | '-' :: c :: rest => letters (c :: rest)
  | _ => .error .usage

def unvalued (pending : Option Setting) : List Item := pending.toList.map (.setting · none)

/-- Reads all words, the first one perhaps as the value that an option still needs. Two dashes alone
end the options, so nothing may follow them. -/
def items (pending : Option Setting) : List (List Char) → Except Stop (List Item)
  | [] => .ok (unvalued pending)
  | w :: rest =>
    match pending, startsOption w with
    | some setting, false => do .ok (.setting setting (some w) :: (← items none rest))
    | _, _ =>
      if w = ['-', '-'] then
        if rest.isEmpty then .ok (unvalued pending) else .error .usage
      else do
        let read ← word w
        .ok (unvalued pending ++ read.items ++ (← items read.pending rest))

/-- A decimal number of at most 64 bits, with or without a plus sign. -/
def number? (text : List Char) : Option Nat :=
  let digits := match text with
    | '+' :: rest => rest
    | _ => text
  if digits.isEmpty ∨ !digits.all Char.isDigit then none
  else
    let value := digits.foldl (fun n c => 10 * n + (c.toNat - '0'.toNat)) 0
    if value < UInt64.size then some value else none

/-- The value of a setting where the item gives one. -/
def Item.valueFor? (setting : Setting) : Item → Option (Option (List Char))
  | .setting s value => if s = setting then some value else none
  | .verbose => none

/-- The number given for a setting, or its default. It may be given once. -/
def resolve (items : List Item) (setting : Setting) (default : Nat) : Except Stop Nat :=
  match items.filterMap (Item.valueFor? setting) with
  | [] | [none] => .ok default
  | [some text] => (number? text).elim (.error .usage) .ok
  | _ => .error .usage

def parse (args : List String) : Except Stop Options := do
  let items ← items none (args.map String.toList)
  if 1 < items.count .verbose then throw .usage
  .ok {
    count := ← resolve items .count 4
    payload := ← resolve items .payload 64
    trace := ← resolve items .trace 0
    verbose := items.contains .verbose }

end Options
end LinkLayer.Loopback
