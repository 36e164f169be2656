/-!
Punycode: a text of any script in letters, digits and hyphens of ASCII. The characters of ASCII come
first. The others follow as one number each, which tells how far it is from one insertion to the
next when they are made in the order of the code points and, for each of these, of the text.
-/

namespace OperationLibrary.Text.Punycode

def base : Nat := 36

def leastThreshold : Nat := 1

def greatestThreshold : Nat := 26

/-- The digits are the letters and then the digits of ASCII. -/
def digit (n : Nat) : Char :=
  if n < 26 then Char.ofNat (n + 97) else Char.ofNat (n + 22)

/-- The threshold of a place: at the last digit of a number the value is below it. -/
def threshold (bias place : Nat) : Nat :=
  max leastThreshold (min greatestThreshold (base * (place + 1) - bias))

/-- The digits of a number from a place on, the lowest first; `rounds` bounds how many there are. -/
def number (bias : Nat) : Nat → Nat → Nat → List Char
  | 0, _, n => [digit n]
  | rounds + 1, place, n =>
    let least := threshold bias place
    if n < least then [digit n]
    else
      let span := base - least
      digit (least + (n - least) % span) :: number bias rounds (place + 1) ((n - least) / span)

/-- Makes a distance small enough for the first place, and counts the places on the way. -/
def scale : Nat → Nat → Nat → Nat
  | 0, distance, bias => bias + base * distance / (distance + 38)
  | rounds + 1, distance, bias =>
    if distance ≤ (base - leastThreshold) * greatestThreshold / 2 then
      bias + base * distance / (distance + 38)
    else scale rounds (distance / (base - leastThreshold)) (bias + base)

/-- The bias for the next number, from the last distance and how many characters there are. -/
def adapt (distance count : Nat) (isFirst : Bool) : Nat :=
  let halved := distance / if isFirst then 700 else 2
  let scaled := halved + halved / count
  scale scaled.log2 scaled 0

/-- Where an encoder stands: the distance from the last insertion, the bias, and how many characters
of the text are there already. -/
structure State where
  distance : Nat
  bias : Nat
  count : Nat
  output : List Char

/-- Passes a character of the text, in the round for the code point `current`. -/
def State.pass (basic current : Nat) (state : State) (c : Char) : State :=
  if c.toNat < current then { state with distance := state.distance + 1 }
  else if c.toNat = current then
    { distance := 0
      bias := adapt state.distance (state.count + 1) (state.count == basic)
      count := state.count + 1
      output := state.output ++ number state.bias (state.distance.log2 + 2) 0 state.distance }
  else state

/-- The rounds for code points, of which `next` is the first that had none yet. -/
def insertAll (text : List Char) (basic : Nat) : List Nat → Nat → State → State
  | [], _, state => state
  | current :: later, next, state =>
    let reached :=
      { state with distance := state.distance + (current - next) * (state.count + 1) }
    let passed := text.foldl (State.pass basic current) reached
    insertAll text basic later (current + 1) { passed with distance := passed.distance + 1 }

def encode (text : List Char) : List Char :=
  let plain := text.filter fun c => c.toNat < 0x80
  let others := ((text.map Char.toNat).filter (0x80 ≤ ·)).eraseDups.mergeSort
  let start := if plain.isEmpty then [] else plain ++ ['-']
  (insertAll text plain.length others 0x80 ⟨0, 72, plain.length, start⟩).output

end OperationLibrary.Text.Punycode
