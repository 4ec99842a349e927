import DeclBundle.Proofs.FileSystem.Resolution

namespace DeclBundle.FileSystem

variable {fs fs' : FileSystem} {follow : Bool} {links : Nat} {l k : Location} {steps rest : List Step}
  {e : Entry} {mode : Nat}

def Reach.Kept (keep : Entry → Prop) : Reach → Prop
  | target (.present _ e) => keep e
  | link _ _ _ => True
  | _ => False

theorem advance_transfer {keep : Entry → Prop} (hkeep : ∀ e, e.isFile = false → keep e)
    (htree : ∀ k e, fs.get? k = some e → keep e → fs'.get? k = some e)
    (h : (fs.advance l steps).Kept keep) : fs'.advance l steps = fs.advance l steps := by
  have hdir {k : Location} {mode : Nat} (hk : fs.get? k = some (.directory mode)) :=
    htree _ _ hk (hkeep _ rfl)
  fun_induction advance fs l steps with
  | case1 l e hl => exact advance_nil (htree l e hl h)
  | case2 => cases h
  | case3 => cases h
  | case4 l steps mode hl ih => rw [advance_here (hdir hl), ih h]
  | case5 l steps mode hl ih => rw [advance_up (hdir hl), ih h]
  | case6 => cases h
  | case7 => cases h
  | case8 l steps mode hl n text hn =>
    rw [advance_down n (hdir hl), htree _ _ hn (hkeep _ rfl)]
  | case9 l steps mode hl n e he hn ih =>
    have hn' : fs'.get? (l ++ [n]) = some e := by
      apply htree _ _ hn
      by_cases hs : steps = []
      · subst hs
        rwa [advance_nil hn] at h
      · cases hd : e.isDirectory with
        | true =>
          obtain ⟨mode, rfl⟩ := Entry.isDirectory_iff.1 hd
          exact hkeep _ rfl
        | false =>
          rw [advance_of_not_directory hn hd hs] at h
          cases h
    rw [advance_down n (hdir hl), hn']
    cases e with
    | link text => exact absurd rfl (he text)
    | _ => exact ih h
  | case10 => cases h

theorem resolve_transfer (keep : Entry → Prop) (hkeep : ∀ e, e.isFile = false → keep e)
    (htree : ∀ k e, fs.get? k = some e → keep e → fs'.get? k = some e) (he : keep e)
    (h : fs.resolve follow links l steps = .ok (.present k e)) :
    fs'.resolve follow links l steps = .ok (.present k e) := by
  have hmove {l : Location} {steps : List Step} (hk : (fs.advance l steps).Kept keep) :=
    advance_transfer hkeep htree hk
  fun_induction resolve fs follow links l steps with
  | case1 links l steps t ha =>
    cases h
    exact resolve_of_target ((hmove (by rwa [ha])).trans ha)
  | case2 => cases h
  | case3 links l steps place text rest ha hf =>
    cases h
    obtain ⟨rfl, hf⟩ := hf
    obtain rfl : follow = false := by simpa using hf
    have hkept : (fs.advance l steps).Kept keep := by
      rw [ha]
      trivial
    exact resolve_of_last_link ((hmove hkept).trans ha)
  | case4 => cases h
  | case5 l steps place text rest ha hf links target ih =>
    have hkept : (fs.advance l steps).Kept keep := by
      rw [ha]
      trivial
    have hf : rest ≠ [] ∨ follow = true := by
      cases follow with
      | true => exact .inr rfl
      | false => exact .inl fun hr => hf ⟨hr, rfl⟩
    rw [resolve_of_link_succ ((hmove hkept).trans ha) hf]
    exact ih h

theorem resolve_mono (htree : ∀ k e, fs.get? k = some e → fs'.get? k = some e)
    (h : fs.resolve follow links l steps = .ok (.present k e)) :
    fs'.resolve follow links l steps = .ok (.present k e) :=
  resolve_transfer (fun _ => True) (fun _ _ => trivial) (fun k e hk _ => htree k e hk) trivial h

end DeclBundle.FileSystem
