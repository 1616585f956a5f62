import EvoCore.BundleTrust
import EvoCore.RegexTerms

namespace EvoCore.NamePatterns
open RegexTerms
open Trust (trim)

variable (engine : Engine)

-- `regex::escape`.
def regexEscape (text : List Char) : List Char := text.flatMap fun c => if isMetaCharacter c then ['\\',c] else [c]

-- What stands before a trailing `.*` when no other `*` does.
def suffixPrefix (p : List Char) : Option (List Char) :=
  if ['.','*'].isSuffixOf p && !(p.take (p.length-2)).contains '*' then some (p.take (p.length-2)) else none

def globText (p : List Char) : List Char :=
  match suffixPrefix p with
  | some front => '^'::regexEscape front ++ (if front.isEmpty then ['.','*'] else ['(','\\','.','.','+',')','*']) ++ ['$']
  | none =>
    '^'::(p.flatMap fun c => if c = '*' then ['[','^','.',']','+'] else if c = '.' then ['\\','.'] else [c]) ++ ['$']

def globToRegex (p : List Char) : Option engine.Regex := engine.new (globText p)

def patternMatch (name pat : List Char) : Bool :=
  let p := trim pat
  if p = ['*'] then true
  else if !p.contains '*' then name = p || (p ++ ['.']).isPrefixOf name
  else match globToRegex engine p with
    | some rx => engine.isMatch rx name
    | none => false

-- No character of the pattern means anything to the regular expressions but the dots and stars,
-- where it is put into one without an escape.
def Plain (p : List Char) : Prop := suffixPrefix p = none → ∀ c ∈ p,c = '*' ∨ c = '.' ∨ special c = false

variable {engine} {p name front text : List Char} {c : Char}

theorem trust_patternMatch {crates : Trust.Crates} (glob : ∀ p name,crates.globIsMatch p name =
    match globToRegex engine p.toList with | some rx => engine.isMatch rx name.toList | none => false) (name pat : String) :
    Trust.patternMatch crates name pat = patternMatch engine name.toList pat.toList := by
  simp only [Trust.patternMatch,patternMatch,glob,String.toList_ofList]
  cases starred : (trim pat.toList).contains '*' <;> simp

end EvoCore.NamePatterns
