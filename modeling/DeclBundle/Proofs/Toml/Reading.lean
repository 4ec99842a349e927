import DeclBundle.Proofs.Toml.Tree
import Mathlib.Data.List.TakeDrop
import Mathlib.Data.Option.Basic

/-!
Readers of a document. What a reader leaves is an end of what it was given, so that spans measured by the
rest of the text are in their places, and the texts of a document stand where its tree says.
-/

namespace DeclBundle.Toml

variable {doc text rest content : List Char} {c? : Option Char} {later : Quoted.Read} {whole fuel : Nat}

namespace Quoted

theorem push_eq_some (h : push c? later = some (content, rest)) : ∃ content', later = some (content', rest) := by
  rw [push.eq_def] at h
  split at h
  next => 
    cases h
    exact ⟨_, rfl⟩
  next => cases h

theorem suffix_of_push (h : push c? later = some (content, rest))
    (hlater : ∀ content, later = some (content, rest) → rest <:+ text) : rest <:+ text := by
  obtain ⟨content', h'⟩ := push_eq_some h
  exact hlater content' h'

theorem basic_suffix (h : basic text = some (content, rest)) : rest <:+ text := by
  fun_induction basic text generalizing content with
  | case1 => cases h
  | case2 r =>
    cases h
    exact List.suffix_cons _ _
  | case3 a b r ih => exact suffix_of_push h fun _ h => (ih h).trans (List.suffix_append ['\\', 'x', a, b] r)
  | case4 a b c d r ih => exact suffix_of_push h fun _ h => (ih h).trans (List.suffix_append ['\\', 'u', a, b, c, d] r)
  | case5 a b c d e f g j r ih =>
    exact suffix_of_push h fun _ h => (ih h).trans (List.suffix_append ['\\', 'U', a, b, c, d, e, f, g, j] r)
  | case6 c r _ _ _ ih => exact suffix_of_push h fun _ h => (ih h).trans (List.suffix_append ['\\', c] r)
  | case7 c r _ _ _ _ _ ih => exact suffix_of_push h fun _ h => (ih h).trans (List.suffix_cons c r)

theorem literal_suffix (h : literal text = some (content, rest)) : rest <:+ text := by
  fun_induction literal text generalizing content with
  | case1 => cases h
  | case2 r =>
    cases h
    exact List.suffix_cons _ _
  | case3 c r _ ih => exact suffix_of_push h fun _ h => (ih h).trans (List.suffix_cons c r)

theorem literalLines_suffix (h : literalLines text = some (content, rest)) : rest <:+ text := by
  fun_induction literalLines text generalizing content with
  | case1 => cases h
  | case2 r =>
    cases h
    exact List.suffix_append ['\'', '\'', '\'', '\'', '\''] rest
  | case3 r =>
    cases h
    exact List.suffix_append ['\'', '\'', '\'', '\''] rest
  | case4 r =>
    cases h
    exact List.suffix_append ['\'', '\'', '\''] rest
  | case5 r ih =>
    refine suffix_of_push h fun _ h => suffix_of_push h fun _ h => ?_
    exact (ih h).trans (List.suffix_append ['\r', '\n'] r)
  | case6 c r _ _ _ _ ih => exact suffix_of_push h fun _ h => (ih h).trans (List.suffix_cons c r)

theorem basicLines_suffix {skipping : Bool} (h : basicLines skipping text = some (content, rest)) :
    rest <:+ text := by
  fun_induction basicLines skipping text generalizing content with
  | case1 => cases h
  | case2 r ih => exact (ih h).trans (List.suffix_cons _ r)
  | case3 _ r _ ih => exact suffix_of_push h fun _ h => (ih h).trans (List.suffix_cons _ r)
  | case4 r ih => exact (ih h).trans (List.suffix_append ['\r', '\n'] r)
  | case5 _ r _ ih =>
    refine suffix_of_push h fun _ h => suffix_of_push h fun _ h => ?_
    exact (ih h).trans (List.suffix_append ['\r', '\n'] r)
  | case6 =>
    cases h
    exact List.suffix_append ['"', '"', '"', '"', '"'] rest
  | case7 =>
    cases h
    exact List.suffix_append ['"', '"', '"', '"'] rest
  | case8 =>
    cases h
    exact List.suffix_append ['"', '"', '"'] rest
  | case9 _ a b r ih => exact suffix_of_push h fun _ h => (ih h).trans (List.suffix_append ['\\', 'x', a, b] r)
  | case10 _ a b c d r ih =>
    exact suffix_of_push h fun _ h => (ih h).trans (List.suffix_append ['\\', 'u', a, b, c, d] r)
  | case11 _ a b c d e f g j r ih =>
    exact suffix_of_push h fun _ h => (ih h).trans (List.suffix_append ['\\', 'U', a, b, c, d, e, f, g, j] r)
  | case12 _ c r _ _ _ _ ih => exact (ih h).trans (List.suffix_cons _ (c :: r))
  | case13 _ c r _ _ _ _ ih => exact suffix_of_push h fun _ h => (ih h).trans (List.suffix_append ['\\', c] r)
  | case14 _ c r _ _ _ _ _ _ _ _ _ _ ih => exact (ih h).trans (List.suffix_cons c r)
  | case15 _ c r _ _ _ _ _ _ _ _ _ _ ih => exact suffix_of_push h fun _ h => (ih h).trans (List.suffix_cons c r)

theorem dropLineEnd_suffix (text : List Char) : dropLineEnd text <:+ text := by
  rw [dropLineEnd.eq_def]
  split
  · exact List.suffix_cons _ _
  · exact List.suffix_append ['\r', '\n'] _
  · exact List.suffix_rfl

theorem line?_suffix (h : line? text = some (content, rest)) : rest <:+ text := by
  rw [line?.eq_def] at h
  split at h
  next => exact (basic_suffix h).trans (List.suffix_cons _ _)
  next => exact (literal_suffix h).trans (List.suffix_cons _ _)
  next => cases h

theorem read?_suffix (h : read? text = some (content, rest)) : rest <:+ text := by
  rw [read?.eq_def] at h
  split at h
  next r =>
    have hopened : r <:+ '"' :: '"' :: '"' :: r := List.suffix_append ['"', '"', '"'] r
    exact ((basicLines_suffix h).trans (dropLineEnd_suffix r)).trans hopened
  next r =>
    have hopened : r <:+ '\'' :: '\'' :: '\'' :: r := List.suffix_append ['\'', '\'', '\''] r
    exact ((literalLines_suffix h).trans (dropLineEnd_suffix r)).trans hopened
  next => exact line?_suffix h

end Quoted

theorem suffix_of_skip {skip : List Char → List Char} {c : Char} (hskip : ∀ text, skip text <:+ text)
    (h : skip text = c :: rest) : rest <:+ text :=
  (List.suffix_cons c rest).trans (h ▸ hskip text)

theorem span_suffix (p : Char → Bool) (text : List Char) : (text.span p).2 <:+ text := by
  rw [List.span_eq_takeWhile_dropWhile]
  exact List.dropWhile_suffix p

theorem Scalar.cut_suffix (text : List Char) : (cut text).2 <:+ text := by
  rw [cut]
  dsimp only
  split
  · exact ((span_suffix _ _).trans (span_suffix _ _)).trans (span_suffix _ _)
  · exact span_suffix _ _

theorem Scalar.read?_suffix {valued : Bool} (h : Scalar.read? text = some (valued, rest)) : rest <:+ text := by
  rw [Scalar.read?] at h
  dsimp only at h
  split at h
  next =>
    cases h
    exact cut_suffix text
  next => cases h

namespace Statement

theorem skipLines_suffix (commented : Bool) (text : List Char) : skipLines commented text <:+ text := by
  fun_induction skipLines commented text with
  | case1 _ r ih => exact ih.trans (List.suffix_cons _ r)
  | case2 _ r ih => exact ih.trans (List.suffix_append ['\r', '\n'] r)
  | case3 c r _ _ _ ih => exact ih.trans (List.suffix_cons c r)
  | case4 => exact List.suffix_rfl
  | case5 _ c r _ _ _ _ ih => exact ih.trans (List.suffix_cons c r)
  | case6 _ r _ _ _ _ ih => exact ih.trans (List.suffix_cons _ r)
  | case7 => exact List.suffix_rfl
  | case8 => exact List.suffix_rfl

theorem skipBlanks_suffix (text : List Char) : skipBlanks text <:+ text :=
  List.dropWhile_suffix _

theorem endLine_suffix (h : endLine text = some rest) : rest <:+ text := by
  have hcomment (r : List Char) : (if r.head? = some '#' then r.dropWhile isPlain else r) <:+ r := by
    split
    · exact List.dropWhile_suffix _
    · exact List.suffix_rfl
  have hend (r : List Char) (hr : r <:+ text) (h : (if r.isEmpty then some []
      else if startsLine r then some (Quoted.dropLineEnd r) else none) = some rest) : rest <:+ text := by
    split at h
    next =>
      cases h
      exact List.nil_suffix
    next =>
      split at h
      next =>
        cases h
        exact (Quoted.dropLineEnd_suffix r).trans hr
      next => cases h
  exact hend _ ((hcomment _).trans (skipBlanks_suffix text)) h

theorem keyText_suffix (h : keyText text = some (content, rest)) : rest <:+ text := by
  rw [keyText] at h
  have hspan := span_suffix isBare text
  split at h
  next r heq =>
    rw [heq] at hspan
    exact (Quoted.line?_suffix h).trans hspan
  next bare r _ heq =>
    rw [heq] at hspan
    cases h
    exact hspan

variable {k : Key} {ks : List Key} {path : Key × List Key}

theorem key_suffix (h : key whole text = some (k, rest)) : rest <:+ text := by
  obtain ⟨⟨content, r⟩, hkey, heq⟩ := Option.bind_eq_some_iff.1 h
  cases heq
  exact keyText_suffix hkey

theorem moreKeys_suffix (h : moreKeys whole fuel text = some (ks, rest)) : rest <:+ text := by
  induction fuel generalizing text ks with
  | zero => cases h
  | succ fuel ih =>
    rw [moreKeys] at h
    split at h
    next r heq =>
      obtain ⟨⟨first, r'⟩, hfirst, h⟩ := Option.bind_eq_some_iff.1 h
      obtain ⟨⟨others, r''⟩, hothers, h⟩ := Option.bind_eq_some_iff.1 h
      cases h
      have hdot : r <:+ text := suffix_of_skip skipBlanks_suffix heq
      exact (ih hothers).trans ((key_suffix hfirst).trans ((skipBlanks_suffix r).trans hdot))
    next =>
      cases h
      exact List.suffix_rfl

theorem keys_suffix (h : keys whole text = some (path, rest)) : rest <:+ text := by
  obtain ⟨⟨first, r⟩, hfirst, h⟩ := Option.bind_eq_some_iff.1 h
  obtain ⟨⟨others, r'⟩, hothers, h⟩ := Option.bind_eq_some_iff.1 h
  obtain ⟨_, -, h⟩ := Option.bind_eq_some_iff.1 h
  cases h
  exact (moreKeys_suffix hothers).trans (key_suffix hfirst)

theorem keysEqual_suffix {skip : List Char → List Char} (hskip : ∀ text, skip text <:+ text)
    (h : keysEqual whole skip text = some (path, rest)) : rest <:+ text := by
  obtain ⟨⟨path', r⟩, hpath, h⟩ := Option.bind_eq_some_iff.1 h
  dsimp only at h
  split at h
  next r' heq =>
    cases h
    have hequals : r' <:+ r := suffix_of_skip hskip heq
    exact (hskip r').trans (hequals.trans (keys_suffix hpath))
  next => cases h

theorem header_suffix (h : header whole text = some (path, rest)) : rest <:+ text := by
  obtain ⟨⟨path', r⟩, hpath, h⟩ := Option.bind_eq_some_iff.1 h
  cases h
  exact (skipBlanks_suffix r).trans ((keys_suffix hpath).trans (skipBlanks_suffix text))

theorem quotes_of_read? (htext : text <:+ doc) (h : Quoted.read? text = some (content, rest)) :
    Quotes doc (.between (Text.size doc) text rest) (String.ofList content) := by
  obtain ⟨before, rfl⟩ := htext
  obtain ⟨quoted, rfl⟩ := Quoted.read?_suffix h
  refine ⟨before, quoted, rest, by rw [List.append_assoc], Span.between_eq before quoted rest, ?_⟩
  rwa [String.toList_ofList]

def ValuesFaithful (doc : List Char) (fuel : Nat) : Prop :=
  ∀ depth text node rest, text <:+ doc → value (Text.size doc) depth fuel text = some (node, rest) →
    rest <:+ text ∧ node.Faithful doc

def ItemsFaithful (doc : List Char) (fuel : Nat) : Prop :=
  ∀ depth text nodes rest, text <:+ doc → items (Text.size doc) depth fuel text = some (nodes, rest) →
    rest <:+ text ∧ ∀ node ∈ nodes, node.Faithful doc

def EntriesFaithful (doc : List Char) (fuel : Nat) : Prop :=
  ∀ depth text found found' rest, text <:+ doc → found.Faithful doc →
    entries (Text.size doc) depth fuel text found = some (found', rest) → rest <:+ text ∧ found'.Faithful doc

theorem text_faithful (htext : text <:+ doc) (h : Quoted.read? text = some (content, rest)) :
    rest <:+ text ∧ (Node.text (.between (Text.size doc) text rest) (String.ofList content)).Faithful doc :=
  ⟨Quoted.read?_suffix h, .text (quotes_of_read? htext h)⟩

theorem valuesFaithful_succ (hitems : ItemsFaithful doc fuel) (hentries : EntriesFaithful doc fuel) :
    ValuesFaithful doc (fuel + 1) := by
  intro depth text node rest htext h
  rw [value.eq_def] at h
  split at h
  next heq => cases heq
  next heq =>
    cases heq
    split at h
    next =>
      obtain ⟨⟨content, r⟩, hread, heq⟩ := Option.bind_eq_some_iff.1 h
      cases heq
      exact text_faithful htext hread
    next =>
      obtain ⟨⟨content, r⟩, hread, heq⟩ := Option.bind_eq_some_iff.1 h
      cases heq
      exact text_faithful htext hread
    next r =>
      obtain ⟨_, -, h⟩ := Option.bind_eq_some_iff.1 h
      obtain ⟨⟨nodes, r'⟩, hread, heq⟩ := Option.bind_eq_some_iff.1 h
      cases heq
      have hr : skipLines false r <:+ '[' :: r := (skipLines_suffix false r).trans (List.suffix_cons _ r)
      obtain ⟨hrest, hnodes⟩ := hitems _ _ _ _ (hr.trans htext) hread
      exact ⟨hrest.trans hr, .array hnodes⟩
    next r =>
      obtain ⟨_, -, h⟩ := Option.bind_eq_some_iff.1 h
      obtain ⟨⟨found, r'⟩, hread, heq⟩ := Option.bind_eq_some_iff.1 h
      cases heq
      have hr : skipLines false r <:+ '\x7b' :: r := (skipLines_suffix false r).trans (List.suffix_cons _ r)
      obtain ⟨hrest, hfound⟩ := hentries _ _ _ _ _ (hr.trans htext) Entries.faithful_nil hread
      exact ⟨hrest.trans hr, Entries.faithful_table_iff.2 hfound⟩
    next =>
      obtain ⟨⟨valued, r⟩, hread, heq⟩ := Option.bind_eq_some_iff.1 h
      cases heq
      exact ⟨Scalar.read?_suffix hread, .scalar⟩

theorem itemsFaithful_succ (hvalues : ValuesFaithful doc fuel) (hitems : ItemsFaithful doc fuel) :
    ItemsFaithful doc (fuel + 1) := by
  intro depth text nodes rest htext h
  rw [items.eq_def] at h
  split at h
  next heq => cases heq
  next r heq =>
    cases h
    exact ⟨List.suffix_cons _ rest, nofun⟩
  next heq _ =>
    cases heq
    obtain ⟨⟨item, r⟩, hread, h⟩ := Option.bind_eq_some_iff.1 h
    obtain ⟨hr, hitem⟩ := hvalues _ _ _ _ htext hread
    dsimp only at h
    split at h
    next r' heq =>
      obtain ⟨⟨others, r''⟩, hothers, h⟩ := Option.bind_eq_some_iff.1 h
      cases h
      have hcomma : r' <:+ r := suffix_of_skip (skipLines_suffix false) heq
      have hr' := (skipLines_suffix false r').trans (hcomma.trans hr)
      obtain ⟨hrest, hnodes⟩ := hitems _ _ _ _ (hr'.trans htext) hothers
      exact ⟨hrest.trans hr', List.forall_mem_cons.2 ⟨hitem, hnodes⟩⟩
    next r' heq =>
      cases h
      have hbracket : rest <:+ r := suffix_of_skip (skipLines_suffix false) heq
      exact ⟨hbracket.trans hr, List.forall_mem_singleton.2 hitem⟩
    next => cases h

theorem entriesFaithful_succ (hvalues : ValuesFaithful doc fuel) (hentries : EntriesFaithful doc fuel) :
    EntriesFaithful doc (fuel + 1) := by
  intro depth text found found' rest htext hfound h
  rw [entries.eq_def] at h
  split at h
  next heq => cases heq
  next r heq =>
    cases h
    exact ⟨List.suffix_cons _ rest, hfound⟩
  next heq _ =>
    cases heq
    obtain ⟨⟨⟨first, others⟩, r⟩, hkeys, h⟩ := Option.bind_eq_some_iff.1 h
    obtain ⟨⟨node, r'⟩, hread, h⟩ := Option.bind_eq_some_iff.1 h
    obtain ⟨assigned, hassign, h⟩ := Option.bind_eq_some_iff.1 h
    have hr := keysEqual_suffix (skipLines_suffix false) hkeys
    obtain ⟨hr', hnode⟩ := hvalues _ _ _ _ (hr.trans htext) hread
    have hassigned := hfound.assign hnode hassign
    split at h
    next r'' heq =>
      have hcomma : r'' <:+ r' := suffix_of_skip (skipLines_suffix false) heq
      have hrest := (skipLines_suffix false r'').trans (hcomma.trans (hr'.trans hr))
      obtain ⟨hsuffix, hfaithful⟩ := hentries _ _ _ _ _ (hrest.trans htext) hassigned h
      exact ⟨hsuffix.trans hrest, hfaithful⟩
    next r'' heq =>
      cases h
      have hbrace : rest <:+ r' := suffix_of_skip (skipLines_suffix false) heq
      exact ⟨hbrace.trans (hr'.trans hr), hassigned⟩
    next => cases h

theorem readers_faithful (doc : List Char) (fuel : Nat) :
    ValuesFaithful doc fuel ∧ ItemsFaithful doc fuel ∧ EntriesFaithful doc fuel := by
  induction fuel with
  | zero => exact ⟨nofun, nofun, nofun⟩
  | succ fuel ih =>
    -- each reader calls the others with less fuel
    obtain ⟨hvalues, hitems, hentries⟩ := ih
    exact ⟨valuesFaithful_succ hitems hentries, itemsFaithful_succ hvalues hitems,
      entriesFaithful_succ hvalues hentries⟩

def Faithful (doc : List Char) : Statement → Prop
  | assign _ _ node => node.Faithful doc
  | _ => True

theorem read?_faithful {statement : Statement} (htext : text <:+ doc)
    (h : read? (Text.size doc) text = some (statement, rest)) : rest <:+ text ∧ statement.Faithful doc := by
  rw [read?.eq_def] at h
  split at h
  next r =>
    obtain ⟨⟨path, r'⟩, hheader, h⟩ := Option.bind_eq_some_iff.1 h
    split at h
    next first others r'' heq =>
      cases heq
      cases h
      have hclosed : rest <:+ ']' :: ']' :: rest := List.suffix_append [']', ']'] rest
      have hopened : r <:+ '[' :: '[' :: r := List.suffix_append ['[', '['] r
      exact ⟨hclosed.trans ((header_suffix hheader).trans hopened), trivial⟩
    next => cases h
  next r _ =>
    obtain ⟨⟨path, r'⟩, hheader, h⟩ := Option.bind_eq_some_iff.1 h
    split at h
    next first others r'' heq =>
      cases heq
      cases h
      have hclosed : rest <:+ ']' :: rest := List.suffix_cons ']' rest
      exact ⟨hclosed.trans ((header_suffix hheader).trans (List.suffix_cons '[' r)), trivial⟩
    next => cases h
  next =>
    obtain ⟨⟨⟨first, others⟩, r⟩, hkeys, h⟩ := Option.bind_eq_some_iff.1 h
    obtain ⟨⟨node, r'⟩, hread, h⟩ := Option.bind_eq_some_iff.1 h
    cases h
    have hr : r <:+ text := keysEqual_suffix skipBlanks_suffix hkeys
    obtain ⟨hrest, hnode⟩ := (readers_faithful doc _).1 _ _ _ _ (hr.trans htext) hread
    exact ⟨hrest.trans hr, hnode⟩

theorem readAll?_faithful {statements : List Statement} (htext : text <:+ doc)
    (h : readAll? (Text.size doc) fuel text = some statements) : ∀ s ∈ statements, s.Faithful doc := by
  induction fuel generalizing text statements with
  | zero => cases h
  | succ fuel ih =>
    have hstart := (skipLines_suffix false text).trans htext
    rw [readAll?] at h
    split at h
    next =>
      cases h
      exact nofun
    next =>
      obtain ⟨⟨statement, r⟩, hread, h⟩ := Option.bind_eq_some_iff.1 h
      obtain ⟨r', hend, h⟩ := Option.bind_eq_some_iff.1 h
      obtain ⟨later, hlater, h⟩ := Option.bind_eq_some_iff.1 h
      cases h
      obtain ⟨hrest, hstatement⟩ := read?_faithful hstart hread
      exact List.forall_mem_cons.2 ⟨hstatement, ih ((endLine_suffix hend).trans (hrest.trans hstart)) hlater⟩

end Statement

namespace Document

open Entries

theorem Draft.add_faithful {draft draft' : Draft} {statement : Statement} (hstatement : statement.Faithful doc)
    (hdraft : draft.entries.Faithful doc) (h : draft.add statement = some draft') : draft'.entries.Faithful doc := by
  cases statement with
  | assign first others node =>
    rw [Draft.add] at h
    split at h
    next =>
      obtain ⟨entries, hentries, heq⟩ := Option.bind_eq_some_iff.1 h
      cases heq
      exact hdraft.assign hstatement hentries
    next =>
      obtain ⟨entries, hentries, heq⟩ := Option.bind_eq_some_iff.1 h
      cases heq
      exact hdraft.reach (keeps_assignInside hstatement first others) hentries
  | table first others span =>
    obtain ⟨entries, hentries, heq⟩ := Option.bind_eq_some_iff.1 h
    cases heq
    exact hdraft.reach (keeps_openTable span) hentries
  | tables first others span =>
    obtain ⟨entries, hentries, heq⟩ := Option.bind_eq_some_iff.1 h
    cases heq
    exact hdraft.reach (keeps_addTable span) hentries

theorem foldlM_add_faithful {statements : List Statement} {draft draft' : Draft}
    (hstatements : ∀ s ∈ statements, s.Faithful doc) (hdraft : draft.entries.Faithful doc)
    (h : statements.foldlM Draft.add draft = some draft') : draft'.entries.Faithful doc := by
  induction statements generalizing draft with
  | nil =>
    cases h
    exact hdraft
  | cons statement statements ih =>
    obtain ⟨hstatement, hrest⟩ := List.forall_mem_cons.1 hstatements
    rw [List.foldlM_cons] at h
    obtain ⟨next, hnext, h⟩ := Option.bind_eq_some_iff.1 h
    exact ih hrest (Draft.add_faithful hstatement hdraft hnext) h

theorem dropMark_suffix (text : List Char) : dropMark text <:+ text := by
  rw [dropMark.eq_def]
  split
  · exact List.suffix_cons _ _
  · exact List.suffix_rfl

theorem parse?_faithful {text : String} {document : Entries} (h : parse? text = some document) :
    document.Faithful text.toList := by
  obtain ⟨statements, hstatements, h⟩ := Option.bind_eq_some_iff.1 h
  obtain ⟨draft, hdraft, heq⟩ := Option.bind_eq_some_iff.1 h
  cases heq
  have hall := Statement.readAll?_faithful (dropMark_suffix text.toList) hstatements
  exact foldlM_add_faithful hall faithful_nil hdraft

end Document

end DeclBundle.Toml
