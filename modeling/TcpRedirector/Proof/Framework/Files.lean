import TcpRedirector.TCB.Files

/-!
# What is done to files

What a change of one file, or a rename, leaves at each path.
-/

namespace TR

theorem wide_inj {a b : Bytes} : wide a = wide b ↔ a = b :=
  ⟨fun h => List.map_injective_iff.mpr (fun c d hcd => by bv_omega) h, fun h => h ▸ rfl⟩

namespace Files

variable {fs : Files} {src dst p q : Path} {f : File}

@[simp] theorem put_self : fs.put p f p = some f := Function.update_self ..

theorem put_of_ne (h : q ≠ p) : fs.put p f q = fs q := Function.update_of_ne h ..

theorem remove_of_ne (h : q ≠ p) : fs.remove p q = fs q := Function.update_of_ne h ..

theorem rename_of_ne (hsrc : p ≠ src) (hdst : p ≠ dst) : fs.rename src dst p = fs p := by
  rw [rename]
  cases fs src with
  | none => rfl
  | some f => exact (put_of_ne hdst).trans (remove_of_ne hsrc)

theorem rename_src (h : src ≠ dst) : fs.rename src dst src = none := by
  rw [rename]
  cases hsrc : fs src with
  | none => exact hsrc
  | some f => exact (put_of_ne h).trans (Function.update_self ..)

/-- The renamed file replaces one of its new name. -/
theorem rename_dst : fs.rename src dst dst = (fs src).or (fs dst) := by
  rw [rename]
  cases fs src with
  | none => rfl
  | some f => exact put_self

end Files

end TR
