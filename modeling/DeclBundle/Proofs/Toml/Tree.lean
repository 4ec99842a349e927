import DeclBundle.Proofs.Text.Span
import DeclBundle.Toml.Document

namespace DeclBundle.Toml

variable {doc : List Char} {node node' : Node} {entries entries' : Entries} {key first : Key} {others : List Key}
  {change : Entries.Change} {span : Span}

def Quotes (doc : List Char) (span : Span) (content : String) : Prop :=
  ∃ before quoted after, doc = before ++ quoted ++ after ∧ span = .of before quoted ∧
    Quoted.read? (quoted ++ after) = some (content.toList, after)

def Entries.Ordered (entries : Entries) : Prop :=
  entries.Pairwise fun a b => compare a.1.text b.1.text = .lt

inductive Node.Faithful (doc : List Char) : Node → Prop
  | text {span : Span} {content : String} (h : Quotes doc span content) : Faithful doc (.text span content)
  | scalar {span : Span} {valued : Bool} : Faithful doc (.scalar span valued)
  | array {span : Span} {items : List Node} (h : ∀ item ∈ items, Faithful doc item) : Faithful doc (.array span items)
  | tables {span : Span} {items : List Node} (h : ∀ item ∈ items, Faithful doc item) : Faithful doc (.tables span items)
  | table {span : Span} {origin : Origin} {entries : Entries} (hordered : entries.Ordered)
      (h : ∀ e ∈ entries, Faithful doc e.2) : Faithful doc (.table span origin entries)

namespace Entries

structure Faithful (doc : List Char) (entries : Entries) : Prop where
  ordered : entries.Ordered
  values : ∀ e ∈ entries, e.2.Faithful doc

theorem faithful_nil : Faithful doc [] :=
  ⟨.nil, nofun⟩

theorem faithful_table_iff {origin : Origin} : (Node.table span origin entries).Faithful doc ↔ entries.Faithful doc := by
  constructor
  · rintro ⟨⟩
    exact ⟨‹_›, ‹_›⟩
  · rintro ⟨hordered, hvalues⟩
    exact .table hordered hvalues

theorem Ordered.unique (h : entries.Ordered) {e e' : Key × Node} (he : e ∈ entries) (he' : e' ∈ entries)
    (hkey : e.1.text = e'.1.text) : e = e' := by
  have hself (a b : Key × Node) (hkey : a.1.text = b.1.text) : compare a.1.text b.1.text ≠ .lt := by
    have hself : compare b.1.text b.1.text = .eq := Std.ReflCmp.compare_self
    rw [hkey, hself]
    exact nofun
  induction h with
  | nil => cases he
  | @cons first rest hfirst _ ih =>
    rcases List.mem_cons.1 he with rfl | hrest
    · rcases List.mem_cons.1 he' with rfl | hrest'
      · rfl
      · exact absurd (hfirst e' hrest') (hself _ _ hkey)
    · rcases List.mem_cons.1 he' with rfl | hrest'
      · exact absurd (hfirst e hrest) (hself _ _ hkey.symm)
      · exact ih hrest hrest'

theorem update_eq_some (h : entries.update key change = some entries') : ∃ front there rest new,
    entries = front ++ (there.toList ++ rest) ∧ change there = some new ∧ entries' = front ++ new :: rest ∧
    (∀ e ∈ front, compare e.1.text key.text = .lt) ∧ (∀ e ∈ there, e.1.text = key.text) ∧
    (there = none → ∀ e ∈ rest.head?, compare key.text e.1.text = .lt) := by
  induction entries generalizing entries' with
  | nil =>
    obtain ⟨new, hnew, hentries⟩ := Option.bind_eq_some_iff.1 h
    cases hentries
    exact ⟨[], none, [], new, rfl, hnew, rfl, nofun, nofun, nofun⟩
  | cons e rest ih =>
    obtain ⟨k, node⟩ := e
    rw [update] at h
    split at h
    next hlt =>
      obtain ⟨new, hnew, hentries⟩ := Option.bind_eq_some_iff.1 h
      cases hentries
      refine ⟨[], none, (k, node) :: rest, new, rfl, hnew, rfl, nofun, nofun, ?_⟩
      rintro - e he
      cases he
      exact hlt
    next heq =>
      obtain ⟨new, hnew, hentries⟩ := Option.bind_eq_some_iff.1 h
      cases hentries
      refine ⟨[], some (k, node), rest, new, rfl, hnew, rfl, nofun, ?_, nofun⟩
      rintro e he
      cases he
      exact (Std.LawfulEqOrd.eq_of_compare heq).symm
    next hgt =>
      obtain ⟨later, hlater, hentries⟩ := Option.bind_eq_some_iff.1 h
      cases hentries
      obtain ⟨front, there, after, new, rfl, hnew, rfl, hfront, hthere, hafter⟩ := ih hlater
      refine ⟨(k, node) :: front, there, after, new, rfl, hnew, rfl, ?_, hthere, hafter⟩
      exact List.forall_mem_cons.2 ⟨Std.OrientedCmp.lt_of_gt hgt, hfront⟩

theorem Ordered.replace {front rest : Entries} {there : Option (Key × Node)} {new : Key × Node}
    (h : Ordered (front ++ (there.toList ++ rest))) (hkey : new.1.text = key.text)
    (hfront : ∀ e ∈ front, compare e.1.text key.text = .lt) (hthere : ∀ e ∈ there, e.1.text = key.text)
    (hrest : there = none → ∀ e ∈ rest.head?, compare key.text e.1.text = .lt) : Ordered (front ++ new :: rest) := by
  obtain ⟨hbefore, hlater, hacross⟩ := List.pairwise_append.1 h
  obtain ⟨-, hafter, habove⟩ := List.pairwise_append.1 hlater
  have hgreater : ∀ e ∈ rest, compare key.text e.1.text = .lt := by
    cases there with
    | some e =>
      intro e' he'
      rw [← hthere e rfl]
      exact habove e (by simp) e' he'
    | none =>
      cases rest with
      | nil => nofun
      | cons least rest =>
        have hleast := hrest rfl least rfl
        refine List.forall_mem_cons.2 ⟨hleast, fun e he => ?_⟩
        exact Std.TransCmp.lt_trans hleast (List.rel_of_pairwise_cons hafter he)
  refine List.pairwise_append.2 ⟨hbefore, List.pairwise_cons.2 ⟨?_, hafter⟩, ?_⟩
  · rwa [hkey]
  · intro e he
    refine List.forall_mem_cons.2 ⟨?_, fun e' he' => hacross e he e' (List.mem_append_right _ he')⟩
    rw [hkey]
    exact hfront e he

def Keeps (doc : List Char) (key : Key) (change : Change) : Prop :=
  ∀ there new, (∀ e ∈ there, e.1.text = key.text ∧ e.2.Faithful doc) → change there = some new →
    new.1.text = key.text ∧ new.2.Faithful doc

theorem Faithful.update (h : entries.Faithful doc) (hchange : Keeps doc key change)
    (hupdate : entries.update key change = some entries') : entries'.Faithful doc := by
  obtain ⟨front, there, rest, new, rfl, hnew, rfl, hfront, hthere, hrest⟩ := update_eq_some hupdate
  have hkept : new.1.text = key.text ∧ new.2.Faithful doc := by
    refine hchange there new (fun e he => ⟨hthere e he, h.values e ?_⟩) hnew
    cases he
    simp
  constructor
  case ordered => exact h.ordered.replace hkept.1 hfront hthere hrest
  case values =>
    intro e he
    rcases List.mem_append.1 he with he | he
    · exact h.values e (List.mem_append_left _ he)
    · rcases List.mem_cons.1 he with rfl | he
      · exact hkept.2
      · exact h.values e (List.mem_append_right _ (List.mem_append_right _ he))

theorem keeps_fresh (hnode : node.Faithful doc) : Keeps doc key (fresh key node) := by
  rintro (_ | there) new - h
  · cases h
    exact ⟨rfl, hnode⟩
  · cases h

theorem Faithful.inside {change : Entries → Option Entries} (hnode : node.Faithful doc)
    (hchange : ∀ inner inner', inner.Faithful doc → change inner = some inner' → inner'.Faithful doc)
    (h : inside change node = some node') : node'.Faithful doc := by
  cases hnode with
  | table hordered hvalues =>
    obtain ⟨inner, hinner, rfl⟩ := Option.map_eq_some_iff.1 h
    exact faithful_table_iff.2 (hchange _ _ ⟨hordered, hvalues⟩ hinner)
  | @tables span items hitems =>
    rw [Entries.inside] at h
    split at h
    next last origin inner hlast =>
      obtain ⟨inner', hinner, hnode⟩ := Option.bind_eq_some_iff.1 h
      cases hnode
      have hmem := hitems _ (List.mem_of_getLast? hlast)
      refine .tables fun item hitem => ?_
      rcases List.mem_append.1 hitem with hitem | hitem
      · exact hitems item (List.dropLast_subset items hitem)
      · rw [List.mem_singleton.1 hitem]
        exact faithful_table_iff.2 (hchange _ _ (faithful_table_iff.1 hmem) hinner)
    next => cases h
  | _ => cases h

theorem Faithful.assign (h : entries.Faithful doc) (hnode : node.Faithful doc)
    (hassign : entries.assign node first others = some entries') : entries'.Faithful doc := by
  induction others generalizing first entries entries' with
  | nil => exact h.update (keeps_fresh hnode) hassign
  | cons next others ih =>
    refine h.update ?_ hassign
    rintro (_ | ⟨k, there⟩) new hthere hnew
    · obtain ⟨inner, hinner, heq⟩ := Option.bind_eq_some_iff.1 hnew
      cases heq
      exact ⟨rfl, faithful_table_iff.2 (ih faithful_nil hinner)⟩
    · dsimp only at hnew
      split at hnew
      next =>
        obtain ⟨inner, hinner, heq⟩ := Option.bind_eq_some_iff.1 hnew
        cases heq
        obtain ⟨hkey, hvalue⟩ := hthere _ rfl
        exact ⟨hkey, Faithful.inside hvalue (fun _ _ => ih) hinner⟩
      next => cases hnew

theorem Faithful.reach {change : Key → Change} (h : entries.Faithful doc) (hchange : ∀ key, Keeps doc key (change key))
    (hreach : entries.reach change first others = some entries') : entries'.Faithful doc := by
  induction others generalizing first entries entries' with
  | nil => exact h.update (hchange first) hreach
  | cons next others ih =>
    refine h.update ?_ hreach
    rintro (_ | ⟨k, there⟩) new hthere hnew
    · obtain ⟨inner, hinner, heq⟩ := Option.bind_eq_some_iff.1 hnew
      cases heq
      exact ⟨rfl, faithful_table_iff.2 (ih faithful_nil hinner)⟩
    · obtain ⟨hkey, hvalue⟩ := hthere _ rfl
      dsimp only at hnew
      split at hnew
      next heq => cases heq
      next => cases hnew
      next heq =>
        cases heq
        obtain ⟨inner, hinner, heq⟩ := Option.bind_eq_some_iff.1 hnew
        cases heq
        exact ⟨hkey, Faithful.inside hvalue (fun _ _ => ih) hinner⟩

end Entries

namespace Document

open Entries

theorem keeps_openTable (span : Span) (key : Key) : Keeps doc key (openTable span key) := by
  rintro there new hthere h
  rw [openTable.eq_def] at h
  split at h
  next =>
    cases h
    exact ⟨rfl, faithful_table_iff.2 faithful_nil⟩
  next =>
    cases h
    exact ⟨rfl, faithful_table_iff.2 (faithful_table_iff.1 (hthere _ rfl).2)⟩
  next => cases h

theorem keeps_addTable (span : Span) (key : Key) : Keeps doc key (addTable span key) := by
  have hempty : (Node.table span .header []).Faithful doc := faithful_table_iff.2 faithful_nil
  rintro there new hthere h
  rw [addTable.eq_def] at h
  split at h
  next =>
    cases h
    exact ⟨rfl, .tables fun item hitem => by rwa [List.mem_singleton.1 hitem]⟩
  next first whole items =>
    cases h
    obtain ⟨hkey, ⟨⟩⟩ := hthere _ rfl
    refine ⟨hkey, .tables fun item hitem => ?_⟩
    rcases List.mem_append.1 hitem with hitem | hitem
    · exact ‹∀ item ∈ items, _› item hitem
    · rwa [List.mem_singleton.1 hitem]
  next => cases h

theorem keeps_assignInside (hnode : node.Faithful doc) (first : Key) (others : List Key) (key : Key) :
    Keeps doc key (assignInside node first others key) := by
  rintro (_ | ⟨k, there⟩) new hthere h
  · cases h
  · obtain ⟨inner, hinner, heq⟩ := Option.bind_eq_some_iff.1 h
    cases heq
    obtain ⟨hkey, hvalue⟩ := hthere _ rfl
    exact ⟨hkey, Faithful.inside hvalue (fun _ _ h hassign => h.assign hnode hassign) hinner⟩

end Document

end DeclBundle.Toml
