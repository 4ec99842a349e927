import DeclBundle.Shell.Quoting

namespace DeclBundle.Shell.Token

open Reader Quoting

def redirection (first : Char) : Reader String := do
  let second? (options : List Char) : Reader String := do
    match ← peek? with
    | some c =>
      if options.contains c then
        let _ ← next?
        return String.ofList [first, c]
      else return String.ofList [first]
    | none => return String.ofList [first]
  if first = '>' then second? ['>', '|', '&']
  else
    let text ← second? ['<', '&', '>']
    if text = "<<" && (← skip? '-') then return "<<-" else return text

def skipComment : (fuel : Nat) → Reader Unit
  | 0 => return
  | fuel + 1 => do
    match (← get).rest with
    | [] => return
    | '\n' :: _ => return
    | _ => do
      let _ ← raw?
      skipComment fuel

def doubled (c : Char) : Reader Token := do
  if ← skip? c then return sign (String.ofList [c, c]) else return sign (String.ofList [c])

def wordOrRedirect (commands : (closed : Bool) → Reader Command) : Reader Token := do
  let w ← parts commands (4 * (← supply)) .word
  match ← peek?, w with
  | some c, w =>
    if c = '<' || c = '>' then
      match w with
      | [] => do
        let _ ← next?
        return redirect none (← redirection c)
      | [.text false [d]] =>
        if d.isDigit then
          let _ ← next?
          return redirect (some (d.toNat - '0'.toNat)) (← redirection c)
        else return word w
      | w => return word w
    else return word w
  | none, w => return word w

def read (commands : (closed : Bool) → Reader Command) : (fuel : Nat) → Reader Token
  | 0 => return finish
  | fuel + 1 => do
    match ← peek? with
    | none => return finish
    | some c =>
      if isBlank c then
        let _ ← next?
        read commands fuel
      else if c = '#' then
        skipComment (← supply)
        read commands fuel
      else if c = '\n' then
        let _ ← next?
        return newline
      else if c = '&' || c = '|' || c = ';' then
        let _ ← next?
        doubled c
      else if c = '(' || c = ')' then
        let _ ← next?
        return sign (String.ofList [c])
      else wordOrRedirect commands

def documentText (a : Awaited) (continued : Bool) : (fuel : Nat) → Reader (List Char)
  | 0 => return []
  | fuel + 1 => do
    let s ← get
    if s.rest.isEmpty then return []
    let line := s.rest.takeWhile (· ≠ '\n')
    let after := s.rest.drop line.length
    set { s with rest := after.drop 1, line := s.line + (after.take 1).length }
    let line := if a.dropsTabs && !continued then line.dropWhile (· = '\t') else line
    if line = a.mark && !continued then return []
    let slashes := (line.reverse.takeWhile (· = '\\')).length
    let rest ← documentText a (!a.verbatim && slashes % 2 = 1) fuel
    return line ++ after.take 1 ++ rest

def documents (commands : (closed : Bool) → Reader Command) : List Awaited → Reader Unit
  | [] => return
  | a :: others => do
    let first := (← get).line
    let text ← documentText a false (← supply)
    let content ←
      if a.verbatim then pure [Part.text true text]
      else do
        let s ← get
        set { s with rest := text, line := first }
        let content ← parts commands (4 * text.length + 4) .wholeDocument
        modify ({ · with rest := s.rest, line := s.line })
        pure content
    modify fun s => { s with documents := (a.number, content) :: s.documents }
    documents commands others

def awaitedDocuments (commands : (closed : Bool) → Reader Command) : Reader Unit := do
  let awaited := (← get).awaited
  modify ({ · with awaited := [] })
  documents commands awaited

end DeclBundle.Shell.Token
