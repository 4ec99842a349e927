import DeclBundle.Config
import DeclBundle.Proofs.FileSystem.Lookup
import DeclBundle.Proofs.Location
import DeclBundle.Proofs.Results

namespace DeclBundle

namespace BundleName

variable {name : String} {n : Name}

theorem text_of_fileName (h : fileName name = .ok n) : n.text = stem name ++ Declaration.suffix := by
  unfold fileName at h
  split at h
  · cases h
  · rw [← Except.ok.inj h]

end BundleName

namespace Config

variable {c : Config} {cwd : Location} {options : Options} {clean : CleanPolicy} {settings : CompilerSettings}

structure Accepted (cwd : Location) (options : Options) (clean : CleanPolicy) (settings : CompilerSettings)
    (c : Config) : Prop where
  inDir : resolve cwd options.inDir = .ok c.inDir
  outDir : resolve cwd options.outDir = .ok c.outDir
  bundleName : BundleName.fileName (options.outFileName.getD BundleName.default) = .ok c.bundleName
  policy : c.clean = clean
  compiler : c.compiler = settings
  apart : clean = .outDir → ¬c.outDir <+: c.inDir

theorem accepted_of_new (h : new cwd options clean settings = .ok c) : Accepted cwd options clean settings c := by
  unfold new at h
  split at h
  · cases h
  · split at h
    · cases h
    · split at h
      · cases h
      · obtain ⟨name, hname, h⟩ := Results.bind_eq_ok.1 h
        obtain ⟨inDir, hin, h⟩ := Results.bind_eq_ok.1 h
        obtain ⟨outDir, hout, h⟩ := Results.bind_eq_ok.1 h
        split at h
        · cases h
        next hapart =>
          cases h
          refine ⟨hin, hout, Results.mapError_eq_ok.1 hname, rfl, rfl, ?_⟩
          intro hclean hwithin
          exact hapart ⟨hclean, List.isPrefixOf_iff_prefix.2 hwithin⟩

theorem Accepted.isDeclaration (h : Accepted cwd options clean settings c) :
    Declaration.isDeclaration c.bundlePath = true := by
  have htext := BundleName.text_of_fileName h.bundleName
  rw [Declaration.isDeclaration, Config.bundlePath, Config.bundle, Location.fileName_path]
  simp only [htext, String.toList_append, List.isSuffixOf_iff_suffix]
  exact List.suffix_append _ _

theorem Accepted.outDir_ne_root (h : Accepted cwd options .outDir settings c) : c.outDir ≠ [] := by
  intro hroot
  apply h.apart rfl
  rw [hroot]
  exact List.nil_prefix

theorem Accepted.isBelow_of_within (h : Accepted cwd options .outDir settings c) {rel : List Name}
    (hwithin : c.outDir <+: c.inDir ++ rel) : c.outDir.isBelow c.inDir = true := by
  apply FileSystem.isBelow_iff.2
  rcases List.prefix_or_prefix_of_prefix hwithin (List.prefix_append c.inDir rel) with hout | hin
  · exact absurd hout (h.apart rfl)
  · refine ⟨hin, ?_⟩
    intro heq
    exact h.apart rfl (by simp [heq])

end Config

end DeclBundle
