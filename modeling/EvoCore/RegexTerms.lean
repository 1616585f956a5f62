import Mathlib

namespace EvoCore.RegexTerms
open scoped Computability

-- The regular expressions a writer puts together term by term between ^ and $: how each term is written and
-- which words it stands for.
inductive Term where
  | literal (c : Char)
  | escaped (c : Char)
  | segment
  | anything
  | below
deriving DecidableEq,Repr

-- What means something else than itself outside a character class.
def special (c : Char) : Bool := ['\\','.','+','*','?','(',')','|','[',']','\x7b','\x7d','^','$'].contains c

-- What an escape writes a backslash before; a backslash before anything else is a class or an error.
def isMetaCharacter (c : Char) : Bool := special c || ['#','&','-','~'].contains c

def Term.text : Term → List Char
  | .literal c => [c]
  | .escaped c => ['\\',c]
  | .segment => ['[','^','.',']','+']
  | .anything => ['.','*']
  | .below => ['(','\\','.','.','+',')','*']

-- The dot stands for any character but a line feed.
def step : Language Char := {word | ∃ rest,word = '.'::rest ∧ rest ≠ [] ∧ '\n' ∉ rest}

def Term.language : Term → Language Char
  | .literal c => {[c]}
  | .escaped c => {[c]}
  | .segment => {word | word ≠ [] ∧ '.' ∉ word}
  | .anything => {word | '\n' ∉ word}
  | .below => step∗

def Term.Fine : Term → Prop
  | .literal c => special c = false
  | .escaped c => isMetaCharacter c = true
  | _ => True

def written (terms : List Term) : List Char := '^'::terms.flatMap Term.text ++ ['$']

def language (terms : List Term) : Language Char := (terms.map Term.language).prod

variable {terms rest : List Term} {word text : List Char} {c : Char}

-- An engine, as far as the documentation of one goes: an expression may be beyond its size.
structure Engine where
  Regex : Type
  withinSize : List Char → Bool
  new : List Char → Option Regex
  isMatch : Regex → List Char → Bool

structure Documented (engine : Engine) : Prop where
  compiles : ∀ terms : List Term,(∀ term ∈ terms,term.Fine) → engine.withinSize (written terms) = true →
    (engine.new (written terms)).isSome = true
  means : ∀ terms : List Term,(∀ term ∈ terms,term.Fine) → ∀ rx,engine.new (written terms) = some rx →
    ∀ word,engine.isMatch rx word = true ↔ word ∈ language terms

def Term.takes : Term → List Char → Bool
  | .literal c,word => word == [c]
  | .escaped c,word => word == [c]
  | .segment,word => !word.isEmpty && !word.contains '.'
  | .anything,word => !word.contains '\n'
  | .below,[] => true
  | .below,c::rest => c == '.' && !rest.isEmpty && !rest.contains '\n'

end EvoCore.RegexTerms
