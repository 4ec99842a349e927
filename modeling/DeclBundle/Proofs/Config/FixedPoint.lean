import DeclBundle.Proofs.Config.Acceptance

namespace DeclBundle

namespace BundleName

variable {given : String} {n : Name}

theorem stem_of_fileName (h : fileName given = .ok n) : stem n.text = stem given := by
  rw [text_of_fileName h, stem_append_suffix]

theorem fileName_text (h : fileName given = .ok n) : fileName n.text = .ok n := by
  have hstem := stem_of_fileName h
  obtain ⟨base, hbase, hno⟩ := exists_fileName_iff.1 ⟨n, h⟩
  rw [bare_iff, ← hstem] at hbase
  obtain ⟨m, hm⟩ := exists_fileName_iff.2 ⟨base, bare_iff.2 hbase, hno⟩
  have htext : m.text = n.text := by
    rw [text_of_fileName hm, hstem, ← text_of_fileName h]
  obtain ⟨text, _⟩ := m
  obtain rfl : text = n.text := htext
  exact hm

end BundleName

namespace Config

variable {cwd : Location} {o : Options} {clean : CleanPolicy} {settings : CompilerSettings} {c : Config}

theorem complete_of_new (h : new cwd o clean settings = .ok c) : Complete o settings := by
  have hno (e : ConfigError) : ¬Refusal cwd o clean settings e := by
    intro hrefusal
    rw [new_of_refusal hrefusal] at h
    cases h
  have hin : o.inDir.text ≠ "" := fun hempty => hno _ (.inDir hempty)
  have hout : o.outDir.text ≠ "" := fun hempty => hno _ (.outDir hin hempty)
  refine ⟨hin, hout, ?_⟩
  rw [← Text.allBlank_eq_false_iff, Bool.eq_false_iff, ne_eq, Text.allBlank_iff]
  exact fun hblank => hno _ (.program hin hout hblank)

/-- What is accepted is accepted again as it is, from any working directory. -/
theorem new_fixed (h : new cwd o clean settings = .ok c) : ∃ n, c.bundlePath.fileName = some n ∧
    ∀ cwd', new cwd' ⟨c.inDir.path, c.outDir.path, some n.text⟩ clean settings = .ok c := by
  have haccepted := accepted_of_new h
  refine ⟨c.bundleName, Location.fileName_path c.outDir c.bundleName, ?_⟩
  intro cwd'
  have hcomplete : Complete ⟨c.inDir.path, c.outDir.path, some c.bundleName.text⟩ settings :=
    ⟨c.inDir.text_path_ne_empty, c.outDir.text_path_ne_empty, (complete_of_new h).program⟩
  have hname : BundleName.fileName ((some c.bundleName.text).getD BundleName.default) = .ok c.bundleName :=
    BundleName.fileName_text haccepted.bundleName
  have hapart : ¬(clean = .outDir ∧ c.outDir <+: c.inDir) := fun hboth => haccepted.apart hboth.1 hboth.2
  rw [new_of_complete hcomplete, hname]
  simp only [Location.locate_path]
  rw [if_neg hapart, ← haccepted.policy, ← haccepted.compiler]

theorem new_fixed_sample : ∃ c n, new [] ⟨⟨"./a/../src/"⟩, ⟨"//out"⟩, some ".d.ts.x"⟩ .outDir .default = .ok c ∧
    c.inDir.path = ⟨"/src"⟩ ∧ c.bundlePath.fileName = some n ∧ n.text = ".d.ts.x.d.ts" ∧
    new [⟨"usr", by decide⟩] ⟨c.inDir.path, c.outDir.path, some n.text⟩ .outDir .default = .ok c := by
  have hnew : new [] ⟨⟨"./a/../src/"⟩, ⟨"//out"⟩, some ".d.ts.x"⟩ .outDir .default =
      .ok ⟨[⟨"src", by decide⟩], [⟨"out", by decide⟩], ⟨".d.ts.x.d.ts", by decide⟩, .outDir, .default⟩ := by
    rfl
  obtain ⟨n, hn, hagain⟩ := new_fixed hnew
  have htext : n.text = ".d.ts.x.d.ts" := by
    rw [bundlePath, bundle, Location.fileName_path] at hn
    rw [← Option.some.inj hn]
  exact ⟨_, n, hnew, rfl, hn, htext, hagain [⟨"usr", by decide⟩]⟩

end Config

end DeclBundle
