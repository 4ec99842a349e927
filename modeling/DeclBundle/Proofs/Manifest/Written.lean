import DeclBundle.Manifest
import DeclBundle.Proofs.Results
import DeclBundle.Proofs.Toml.Reading

/-!
The values of a document that a manifest is made of. Each setting has one place in a document, by the names
of its table and its key, or by its number where the table is given as a list.
-/

namespace DeclBundle.Manifest

open Toml Results

variable {document : Entries} {doc : List Char} {setting : Setting} {node a b : Node} {key : Key} {content : String}
  {m m' : Manifest} {s s' : CompilerSettings} {value : Unusable} {file file' text : String}

def tableOf : Setting → String
  | .program => "compiler"
  | _ => "bundle"

def numberOf : Setting → Nat
  | .inDir => 0
  | .outDir => 1
  | .outFileName => 2
  | .program => 0

/-- A table, or the list it is given as, gives the setting a value. -/
inductive Gives (setting : Setting) (value : Node) : Node → Prop
  | named {span : Span} {origin : Origin} {entries : Entries} {key : Key} (hkey : key.text = setting.key)
      (h : (key, value) ∈ entries) : Gives setting value (.table span origin entries)
  | listed {span : Span} {items : List Node} (h : items[numberOf setting]? = some value) :
      Gives setting value (.array span items)

def Written (document : Entries) (setting : Setting) (value : Node) : Prop :=
  ∃ name table, name.text = tableOf setting ∧ (name, table) ∈ document ∧ Gives setting value table

def value? (m : Manifest) : Setting → Option String
  | .inDir => m.inDir.map Path.text
  | .outDir => m.outDir.map Path.text
  | .outFileName => m.outFileName
  | .program => some m.compiler.program

theorem Gives.unique (hnode : node.Faithful doc) (h : Gives setting a node) (h' : Gives setting b node) : a = b := by
  cases h with
  | named hkey hmem =>
    obtain ⟨hkey', hmem'⟩ := h'
    exact congrArg Prod.snd ((Entries.faithful_table_iff.1 hnode).ordered.unique hmem hmem' (hkey.trans hkey'.symm))
  | listed hitem =>
    obtain ⟨⟩ | ⟨hitem'⟩ := h'
    rw [hitem] at hitem'
    exact Option.some.inj hitem'

theorem Gives.faithful (hnode : node.Faithful doc) (h : Gives setting a node) : a.Faithful doc := by
  cases h with
  | named _ hmem => exact (Entries.faithful_table_iff.1 hnode).values _ hmem
  | listed hitem =>
    cases hnode with
    | array hitems => exact hitems a (List.mem_of_getElem? hitem)

theorem Written.unique (hdocument : document.Faithful doc) (h : Written document setting a)
    (h' : Written document setting b) : a = b := by
  obtain ⟨name, table, hname, hmem, hgives⟩ := h
  obtain ⟨name', table', hname', hmem', hgives'⟩ := h'
  cases hdocument.ordered.unique hmem hmem' (hname.trans hname'.symm)
  exact hgives.unique (hdocument.values _ hmem) hgives'

theorem Written.faithful (hdocument : document.Faithful doc) (h : Written document setting a) : a.Faithful doc := by
  obtain ⟨name, table, -, hmem, hgives⟩ := h
  exact hgives.faithful (hdocument.values _ hmem)

theorem fitText_eq_ok (h : fitText node = .ok content) : ∃ span, node = .text span content := by
  cases node with
  | text span content' =>
    cases h
    exact ⟨span, rfl⟩
  | _ => cases h

theorem value?_bundleField (h : bundleField m key node = .ok m') (hvalue : m'.value? setting = some content) :
    m.value? setting = some content ∨
      tableOf setting = "bundle" ∧ key.text = setting.key ∧ ∃ span, node = .text span content := by
  rw [bundleField] at h
  split at h
  next hkey =>
    obtain ⟨path, hpath, heq⟩ := bind_eq_ok.1 h
    cases heq
    cases setting with
    | inDir =>
      cases hvalue
      exact .inr ⟨rfl, hkey, fitText_eq_ok hpath⟩
    | _ => exact .inl hvalue
  next hkey =>
    obtain ⟨path, hpath, heq⟩ := bind_eq_ok.1 h
    cases heq
    cases setting with
    | outDir =>
      cases hvalue
      exact .inr ⟨rfl, hkey, fitText_eq_ok hpath⟩
    | _ => exact .inl hvalue
  next hkey =>
    obtain ⟨name, hname, heq⟩ := bind_eq_ok.1 h
    cases heq
    cases setting with
    | outFileName =>
      cases hvalue
      exact .inr ⟨rfl, hkey, fitText_eq_ok hname⟩
    | _ => exact .inl hvalue
  next =>
    obtain ⟨policy, -, heq⟩ := bind_eq_ok.1 h
    cases heq
    cases setting <;> exact .inl hvalue
  next => cases h

def TakenFrom (m : Manifest) (name : String) (table : Node) (m' : Manifest) : Prop :=
  ∀ setting content, m'.value? setting = some content →
    m.value? setting = some content ∨ tableOf setting = name ∧ ∃ span, Gives setting (.text span content) table

theorem exists_gives_listed {span : Span} {items : List Node} (hitem : items[numberOf setting]? = some node)
    (hnode : fitText node = .ok content) : ∃ here, Gives setting (.text here content) (.array span items) := by
  obtain ⟨here, rfl⟩ := fitText_eq_ok hnode
  exact ⟨here, .listed hitem⟩

theorem takenFrom_fitBundle (h : fitBundle m node = .ok m') : TakenFrom m "bundle" node m' := by
  rw [fitBundle.eq_def] at h
  split at h
  next span origin entries =>
    apply foldlM_keeps h
    · intro e he m₁ m₂ htaken hfield setting content hvalue
      rcases value?_bundleField hfield hvalue with hvalue | ⟨htable, hkey, span, hnode⟩
      · exact htaken setting content hvalue
      · exact .inr ⟨htable, span, .named hkey (hnode ▸ he)⟩
    · exact fun _ _ => .inl
  next span items =>
    obtain ⟨texts, htexts, h⟩ := bind_eq_ok.1 h
    have hmap := mapM_eq_ok_iff.1 htexts
    split at h
    next inDir outDir name clean rest hrest =>
      obtain ⟨policy, -, heq⟩ := bind_eq_ok.1 h
      cases heq
      have hitems := List.take_append_drop 3 items
      obtain ⟨first, _, hfront, hfirst, hmap⟩ := List.map_eq_cons_iff.1 hmap
      obtain ⟨second, _, rfl, hsecond, hmap⟩ := List.map_eq_cons_iff.1 hmap
      obtain ⟨third, _, rfl, hthird, hmap⟩ := List.map_eq_cons_iff.1 hmap
      rw [hrest, hfront] at hitems
      intro setting content hvalue
      cases setting with
      | inDir =>
        cases hvalue
        exact .inr ⟨rfl, exists_gives_listed (by rw [← hitems]; rfl) hfirst⟩
      | outDir =>
        cases hvalue
        exact .inr ⟨rfl, exists_gives_listed (by rw [← hitems]; rfl) hsecond⟩
      | outFileName =>
        cases hvalue
        exact .inr ⟨rfl, exists_gives_listed (by rw [← hitems]; rfl) hthird⟩
      | program => exact .inl hvalue
    next => cases h
  next => cases h

theorem program_compilerField (h : compilerField s key node = .ok s') :
    s'.program = s.program ∨ key.text = "program" ∧ ∃ span, node = .text span s'.program := by
  rw [compilerField] at h
  split at h
  next hkey =>
    obtain ⟨program, hprogram, heq⟩ := bind_eq_ok.1 h
    cases heq
    exact .inr ⟨hkey, fitText_eq_ok hprogram⟩
  next =>
    obtain ⟨args, -, heq⟩ := bind_eq_ok.1 h
    cases heq
    exact .inl rfl
  next => cases h

theorem program_fitCompiler (h : fitCompiler s node = .ok s') :
    s'.program = s.program ∨ ∃ span, Gives .program (.text span s'.program) node := by
  rw [fitCompiler.eq_def] at h
  split at h
  next span origin entries =>
    apply foldlM_keeps h
    · intro e he s₁ s₂ htaken hfield
      rcases program_compilerField hfield with hprogram | ⟨hkey, span, hnode⟩
      · rwa [hprogram]
      · exact .inr ⟨span, .named hkey (hnode ▸ he)⟩
    · exact .inl rfl
  next =>
    cases h
    exact .inl rfl
  next span program =>
    obtain ⟨content, hprogram, heq⟩ := bind_eq_ok.1 h
    cases heq
    exact .inr (exists_gives_listed rfl hprogram)
  next span program args rest =>
    obtain ⟨content, hprogram, h⟩ := bind_eq_ok.1 h
    obtain ⟨texts, -, heq⟩ := bind_eq_ok.1 h
    cases heq
    exact .inr (exists_gives_listed rfl hprogram)
  next => cases h

theorem takenFrom_field (h : field m key node = .ok m') : TakenFrom m key.text node m' := by
  rw [field] at h
  split at h
  next hkey =>
    rw [hkey]
    exact takenFrom_fitBundle h
  next hkey =>
    obtain ⟨compiler, hcompiler, heq⟩ := bind_eq_ok.1 h
    cases heq
    intro setting content hvalue
    cases setting with
    | program =>
      cases hvalue
      rcases program_fitCompiler hcompiler with hprogram | hgives
      · exact .inl (congrArg some hprogram.symm)
      · exact .inr ⟨hkey.symm, hgives⟩
    | _ => exact .inl hvalue
  next => cases h

theorem value?_fit (h : fit document = .ok m) (hvalue : m.value? setting = some content) :
    empty.value? setting = some content ∨ ∃ span, Written document setting (.text span content) := by
  have htaken : ∀ setting content, m.value? setting = some content →
      empty.value? setting = some content ∨ ∃ span, Written document setting (.text span content) := by
    apply foldlM_keeps h
    · intro e he m₁ m₂ hbefore hfield setting content hvalue
      rcases takenFrom_field hfield setting content hvalue with hvalue | ⟨htable, span, hgives⟩
      · exact hbefore setting content hvalue
      · exact .inr ⟨span, e.1, e.2, htable.symm, he, hgives⟩
    · exact fun _ _ => .inl
  exact htaken setting content hvalue

theorem exists_written_of_unusable? (h : fit document = .ok m) (hunusable : m.unusable? = some value) :
    ∃ span content, Written document value.setting (.text span content) := by
  have hfound (setting : Setting) (content : String) (hvalue : m.value? setting = some content)
      (hnew : empty.value? setting ≠ some content) : ∃ span content, Written document setting (.text span content) := by
    obtain ⟨span, hwritten⟩ := (value?_fit h hvalue).resolve_left hnew
    exact ⟨span, content, hwritten⟩
  unfold unusable? at hunusable
  split at hunusable
  next fault hfault =>
    cases hunusable
    obtain ⟨name, hname, -⟩ := Option.bind_eq_some_iff.1 hfault
    exact hfound .outFileName name hname nofun
  next =>
    split at hunusable
    next hin =>
      cases hunusable
      exact hfound .inDir "" (congrArg (Option.map Path.text) hin) nofun
    next =>
      split at hunusable
      next hout =>
        cases hunusable
        exact hfound .outDir "" (congrArg (Option.map Path.text) hout) nofun
      next =>
        split at hunusable
        next hblank =>
          cases hunusable
          refine hfound .program m.compiler.program rfl ?_
          intro hdefault
          rw [← Option.some.inj hdefault] at hblank
          exact absurd hblank (by decide +kernel)
        next => cases hunusable

theorem parse_eq_unusable {span : Option Span} (h : parse file text = .error (.unusable file' value span)) :
    ∃ document m, Document.parse? text = some document ∧ fit document = .ok m ∧ m.unusable? = some value ∧
      span = Label.find? text value.setting.key := by
  unfold parse at h
  split at h
  next => cases h
  next document hdocument =>
    split at h
    next =>
      split at h
      · cases h
      · cases h
    next m hfit =>
      split at h
      next hunusable =>
        cases h
        exact ⟨document, m, hdocument, hfit, hunusable, rfl⟩
      next => cases h

theorem exists_value_of_parse {span : Option Span} (h : parse file text = .error (.unusable file' value span)) :
    ∃ document written content, Document.parse? text = some document ∧
      (∀ node, Written document value.setting node ↔ node = .text written content) ∧
      Quotes text.toList written content := by
  obtain ⟨document, m, hdocument, hfit, hunusable, -⟩ := parse_eq_unusable h
  obtain ⟨written, content, hwritten⟩ := exists_written_of_unusable? hfit hunusable
  have hfaithful := Document.parse?_faithful hdocument
  refine ⟨document, written, content, hdocument, fun node => ⟨fun h => h.unique hfaithful hwritten, ?_⟩, ?_⟩
  · rintro rfl
    exact hwritten
  · cases hwritten.faithful hfaithful with
    | text hquotes => exact hquotes

end DeclBundle.Manifest
