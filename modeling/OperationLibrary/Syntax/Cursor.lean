import OperationLibrary.Syntax.SyntaxError

/-!
A place between tokens, and the readers that move it. The current token is always known; moving on
fails where the text could not be scanned any further, so a fault of the characters is reported as
soon as it becomes the current token.
-/

namespace OperationLibrary.Syntax

/-- The current token and those after it. -/
structure Cursor where
  current : Token
  later : List Token

/-- A reader takes tokens off the front or fails. -/
abbrev Reader := StateT Cursor (Except SyntaxError)

namespace Reader

def fail {α : Type} (fault : SyntaxFault) (offset : Nat) : Reader α :=
  throw ⟨fault, offset⟩

/-- The current token. -/
def current : Reader Token := do
  return (← get).current

/-- The token behind the current one. -/
def lookahead : Reader Token := do
  let cursor ← get
  match cursor.later with
  | [] => return cursor.current
  | ⟨.invalid fault, offset⟩ :: _ => fail (.scan fault) offset
  | next :: _ => return next

/-- Moves on to the next token. The end of the text stays where it is. -/
def advance : Reader Unit := do
  let cursor ← get
  match cursor.later with
  | [] => return ()
  | ⟨.invalid fault, offset⟩ :: _ => fail (.scan fault) offset
  | next :: later => set (Cursor.mk next later)

/-- Fails at the current token, which nothing allows here. -/
def unexpected {α : Type} : Reader α := do
  let token ← current
  fail (.unexpected token.lexeme) token.offset

/-- Whether the current token is the punctuator. -/
def atMark (mark : Punctuator) : Reader Bool := do
  return (← current).lexeme = .punctuator mark

def atName : Reader Bool := do
  match (← current).lexeme with
  | .name _ => return true
  | _ => return false

/-- Takes the punctuator if it is the current token. -/
def takeMark? (mark : Punctuator) : Reader Bool := do
  if ← atMark mark then
    advance
    return true
  else return false

def takeMark (mark : Punctuator) : Reader Unit := do
  let token ← current
  if token.lexeme = .punctuator mark then advance
  else fail (.expected (.mark mark) token.lexeme) token.offset

def takeName : Reader String := do
  let token ← current
  match token.lexeme with
  | .name text =>
    advance
    return text
  | found => fail (.expected .name found) token.offset

/-- Takes the name `word` if it is the current token. -/
def takeKeyword? (word : String) : Reader Bool := do
  if (← current).lexeme = .name word then
    advance
    return true
  else return false

def takeKeyword (word : String) : Reader Unit := do
  let token ← current
  if token.lexeme = .name word then advance
  else fail (.expected (.keyword word) token.lexeme) token.offset

/-! ### Repetition

A repetition makes at most as many rounds as there are tokens; every item takes at least one, so
the bound is never met. -/

def untilMarkBounded {α : Type} (close : Punctuator) (item : Reader α) : Nat → Reader (List α)
  | 0 => unexpected
  | rounds + 1 => do
    if ← takeMark? close then return []
    else
      let first ← item
      let others ← untilMarkBounded close item rounds
      return first :: others

/-- Items up to and with the closing punctuator. -/
def untilMark {α : Type} (close : Punctuator) (item : Reader α) : Reader (List α) := do
  untilMarkBounded close item ((← get).later.length + 2)

/-- Any number of items between two punctuators. -/
def between {α : Type} (openMark close : Punctuator) (item : Reader α) : Reader (List α) := do
  takeMark openMark
  untilMark close item

/-- At least one item between two punctuators, or nothing where the first is missing. -/
def betweenIfOpen {α : Type} (openMark close : Punctuator) (item : Reader α) :
    Reader (List α) := do
  if ← takeMark? openMark then
    let first ← item
    let others ← untilMark close item
    return first :: others
  else return []

def separatedBounded {α : Type} (mark : Punctuator) (item : Reader α) : Nat → Reader (List α)
  | 0 => return []
  | rounds + 1 => do
    if ← takeMark? mark then
      let first ← item
      let others ← separatedBounded mark item rounds
      return first :: others
    else return []

/-- At least one item, with the punctuator between items and perhaps before the first. -/
def separatedBy {α : Type} (mark : Punctuator) (item : Reader α) : Reader (List α) := do
  let _ ← takeMark? mark
  let first ← item
  let others ← separatedBounded mark item ((← get).later.length + 1)
  return first :: others

def whileMarkBounded {α : Type} (mark : Punctuator) (item : Reader α) : Nat → Reader (List α)
  | 0 => return []
  | rounds + 1 => do
    if ← atMark mark then
      let first ← item
      let others ← whileMarkBounded mark item rounds
      return first :: others
    else return []

/-- Items for as long as the current token is the punctuator. -/
def whileMark {α : Type} (mark : Punctuator) (item : Reader α) : Reader (List α) := do
  whileMarkBounded mark item ((← get).later.length + 2)

end Reader

end OperationLibrary.Syntax
