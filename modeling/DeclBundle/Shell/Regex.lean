import DeclBundle.Shell.Bytes
import DeclBundle.Shell.Pattern

/-!
Regular expressions over bytes, in the two ways of writing them. A match is the leftmost one, and
the longest of those that begin there.
-/

namespace DeclBundle.Shell

inductive Regex
  | char (c : Char)
  | any
  | set (negated : Bool) (ranges : List Range)
  | lineStart
  | lineEnd
  | wordEdge (start finish : Bool)
  | group (number : Nat) (body : Regex)
  | back (number : Nat)
  | many (body : Regex) (least : Nat) (most : Option Nat)
  | both (first second : Regex)
  | either (first second : Regex)
  | nothing
  deriving Inhabited

namespace Regex

inductive Sign
  | atom (r : Regex)
  | groupOpen
  | groupClose
  | bar
  | times (least : Nat) (most : Option Nat)

def wordRanges : List Range := [.named "alnum", .between '_' '_']

def bounds? (extended : Bool) (text : List Char) : Option (Nat × Option Nat × List Char) :=
  let low := text.takeWhile Char.isDigit
  let rest := text.drop low.length
  let (high, rest) := match rest with
    | ',' :: rest =>
      let high := rest.takeWhile Char.isDigit
      (if high.isEmpty then none else some (numberOf 10 high), rest.drop high.length)
    | rest => (some (numberOf 10 low), rest)
  match extended, rest with
  | true, '\x7d' :: rest => some (numberOf 10 low, high, rest)
  | false, '\\' :: '\x7d' :: rest => some (numberOf 10 low, high, rest)
  | _, _ => none

def escaped (extended : Bool) (c : Char) (rest : List Char) : Except String (Sign × List Char) :=
  match c with
  | 'n' => .ok (.atom (.char '\n'), rest)
  | 't' => .ok (.atom (.char '\t'), rest)
  | 'w' => .ok (.atom (.set false wordRanges), rest)
  | 'W' => .ok (.atom (.set true wordRanges), rest)
  | 's' => .ok (.atom (.set false [.named "space"]), rest)
  | 'S' => .ok (.atom (.set true [.named "space"]), rest)
  | 'b' => .ok (.atom (.wordEdge true true), rest)
  | '<' => .ok (.atom (.wordEdge true false), rest)
  | '>' => .ok (.atom (.wordEdge false true), rest)
  | c =>
    if c.isDigit && c ≠ '0' then .ok (.atom (.back (c.toNat - '0'.toNat)), rest)
    else if extended then .ok (.atom (.char c), rest)
    else
      match c with
      | '(' => .ok (.groupOpen, rest)
      | ')' => .ok (.groupClose, rest)
      | '|' => .ok (.bar, rest)
      | '+' => .ok (.times 1 none, rest)
      | '?' => .ok (.times 0 (some 1), rest)
      | '\x7b' =>
        match bounds? false rest with
        | some (low, high, rest) => .ok (.times low high, rest)
        | none => .error "Unmatched \\\x7b"
      | c => .ok (.atom (.char c), rest)

def brackets (text : List Char) : Except String (Sign × List Char) :=
  let negated := text.head? = some '^'
  let body := if negated then text.drop 1 else text
  match Pattern.ranges (body.length + 1) true (body.map (⟨false, ·⟩)) with
  | some (ranges, rest) => .ok (.atom (.set negated ranges), rest.map Letter.char)
  | none => .error "Unmatched [, [^, [:, [., or [="

def signs (extended : Bool) : (fuel : Nat) → (atStart : Bool) → List Char →
    Except String (List Sign)
  | 0, _, _ => .ok []
  | _ + 1, _, [] => .ok []
  | fuel + 1, atStart, c :: rest => do
    let plain : Except String (Sign × List Char) := .ok (.atom (.char c), rest)
    let closes := rest.isEmpty || (!extended && ['\\', ')'].isPrefixOf rest) ||
      (!extended && ['\\', '|'].isPrefixOf rest)
    let (sign, rest) ← match c with
      | '\\' =>
        match rest with
        | [] => .error "Trailing backslash"
        | d :: rest => escaped extended d rest
      | '[' => brackets rest
      | '.' => .ok (.atom .any, rest)
      | '*' => if atStart && !extended then plain else .ok (.times 0 none, rest)
      | '^' => if extended || atStart then .ok (.atom .lineStart, rest) else plain
      | '$' => if extended || closes then .ok (.atom .lineEnd, rest) else plain
      | '(' => if extended then .ok (.groupOpen, rest) else plain
      | ')' => if extended then .ok (.groupClose, rest) else plain
      | '|' => if extended then .ok (.bar, rest) else plain
      | '+' => if extended && !atStart then .ok (.times 1 none, rest) else plain
      | '?' => if extended && !atStart then .ok (.times 0 (some 1), rest) else plain
      | '\x7b' =>
        match extended, bounds? true rest with
        | true, some (low, high, rest) => .ok (.times low high, rest)
        | _, _ => plain
      | _ => plain
    let begins := match sign with
      | .groupOpen | .bar | .atom .lineStart => true
      | _ => false
    return sign :: (← signs extended fuel begins rest)

mutual

def alternatives : (fuel groups : Nat) → List Sign → Except String (Regex × Nat × List Sign)
  | 0, _, _ => .error "Regular expression too big"
  | fuel + 1, groups, signs => do
    let (first, groups, rest) ← sequence fuel groups signs
    match rest with
    | .bar :: rest => do
      let (second, groups, rest) ← alternatives fuel groups rest
      return (either first second, groups, rest)
    | rest => return (first, groups, rest)

def sequence : (fuel groups : Nat) → List Sign → Except String (Regex × Nat × List Sign)
  | 0, _, _ => .error "Regular expression too big"
  | fuel + 1, groups, signs => do
    match signs with
    | [] | .bar :: _ | .groupClose :: _ => return (nothing, groups, signs)
    | .groupOpen :: rest => do
      let number := groups + 1
      match ← alternatives fuel number rest with
      | (body, groups, .groupClose :: rest) => do
        let (r, rest) := repeated fuel (group number body) rest
        let (others, groups, rest) ← sequence fuel groups rest
        return (both r others, groups, rest)
      | _ => .error "Unmatched ( or \\("
    | .atom a :: rest => do
      let (r, rest) := repeated fuel a rest
      let (others, groups, rest) ← sequence fuel groups rest
      return (both r others, groups, rest)
    | .times _ _ :: rest => sequence fuel groups rest

def repeated : (fuel : Nat) → Regex → List Sign → Regex × List Sign
  | fuel + 1, r, .times least most :: rest => repeated fuel (many r least most) rest
  | _, r, rest => (r, rest)

end

def read? (extended : Bool) (text : List Char) : Except String Regex := do
  let found ← signs extended (text.length + 1) true text
  match ← alternatives (3 * found.length + 3) 0 found with
  | (r, _, []) => return r
  | _ => .error "Unmatched ) or \\)"

structure Place where
  before : Option Char
  rest : List Char
  groups : List (Nat × List Char)

def isWordChar (c : Char) : Bool := c.isAlphanum || c = '_'

def fold (ignoresCase : Bool) (c : Char) : Char := if ignoresCase then c.toLower else c

def Place.step (p : Place) (c : Char) (rest : List Char) : Place :=
  { p with before := some c, rest := rest }

def distinct : List Place → List Place
  | [] => []
  | p :: others =>
    p :: (distinct others).filter fun q => q.rest.length ≠ p.rest.length

def insertText (text : List Char) (p : Place) : Place :=
  { p with before := text.getLast?.or p.before, rest := p.rest.drop text.length }

/-- All places that a match of an expression can lead to, the preferred ones first. -/
def ends (ignoresCase : Bool) : (fuel : Nat) → Regex → Place → List Place
  | 0, _, _ => []
  | fuel + 1, r, p =>
    match r with
    | nothing => [p]
    | char c =>
      match p.rest with
      | d :: rest => if fold ignoresCase c = fold ignoresCase d then [p.step d rest] else []
      | [] => []
    | any =>
      match p.rest with
      | d :: rest => [p.step d rest]
      | [] => []
    | set negated ranges =>
      match p.rest with
      | d :: rest =>
        let holds := ranges.any fun r =>
          r.holds d || (ignoresCase && (r.holds d.toLower || r.holds d.toUpper))
        if holds ≠ negated then [p.step d rest] else []
      | [] => []
    | lineStart => if p.before.isNone then [p] else []
    | lineEnd => if p.rest.isEmpty then [p] else []
    | wordEdge start finish =>
      let left := p.before.any isWordChar
      let right := p.rest.head?.any isWordChar
      if (start && !left && right) || (finish && left && !right) then [p] else []
    | group number body =>
      (ends ignoresCase fuel body p).map fun q =>
        { q with groups := (number, p.rest.take (p.rest.length - q.rest.length)) :: q.groups }
    | back number =>
      match p.groups.lookup number with
      | some text => if text.isPrefixOf p.rest then [insertText text p] else []
      | none => []
    | both first second =>
      distinct ((ends ignoresCase fuel first p).flatMap (ends ignoresCase fuel second))
    | either first second =>
      distinct (ends ignoresCase fuel first p ++ ends ignoresCase fuel second p)
    | many body least most =>
      let further := if most = some 0 then [] else
        (ends ignoresCase fuel body p).filter fun q => least > 0 || q.rest.length < p.rest.length
      let longer := further.flatMap
        (ends ignoresCase fuel (many body (least - 1) (most.map (· - 1))))
      distinct (longer ++ if least = 0 then [p] else [])

def size : Regex → Nat
  | group _ r => r.size + 1
  | many r least _ => r.size + least + 1
  | both a b | either a b => a.size + b.size + 1
  | _ => 1

def matchAt? (r : Regex) (ignoresCase : Bool) (p : Place) : Option Place :=
  (ends ignoresCase (r.size * (p.rest.length + 2) + 2) r p).foldl (fun best q =>
    match best with
    | some b => if q.rest.length < b.rest.length then some q else some b
    | none => some q) none

structure Found where
  skipped : List Char
  text : List Char
  groups : List (Nat × List Char)
  after : Place

def find? (r : Regex) (ignoresCase : Bool) : (before : Option Char) → List Char → Option Found
  | before, rest =>
    let p : Place := ⟨before, rest, []⟩
    match r.matchAt? ignoresCase p with
    | some q =>
      some ⟨[], rest.take (rest.length - q.rest.length), q.groups, { q with groups := [] }⟩
    | none =>
      match rest with
      | [] => none
      | c :: rest =>
        (r.find? ignoresCase (some c) rest).map fun f => { f with skipped := c :: f.skipped }
termination_by _ rest => rest.length

end Regex

end DeclBundle.Shell
