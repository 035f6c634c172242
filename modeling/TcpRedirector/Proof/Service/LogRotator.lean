import Mathlib.Algebra.Group.Int.Defs
import Mathlib.Data.List.InsertIdx
import Mathlib.Data.List.Nodup
import TcpRedirector.Impl.Service.LogRotator
import TcpRedirector.Proof.Framework.Files
import TcpRedirector.Proof.Framework.Run

/-!
# Rotated logs are kept

What a rotated log held is in a log file, in a complete archive, or was in a
file deleted because of its age (`rotated_kept`), in every run in which no file
is replaced by a rename or a compression, an archive that is found is complete
and the age does not overflow (`Careful`). A name has the minute only, an
archive is only looked for, and the age is not checked, so the code sees to
none of these.
-/

namespace TR.Impl.Service.LogRotator

section

variable (x : Config)

/-! ## Names -/

theorem extension_append {a e : WString} (ha : a ≠ []) (he : (46 : BitVec 16) ∉ e) : extension (a ++ 46 :: e) = 46 :: e := by
  have hmem : (46 : BitVec 16) ∈ (a ++ 46 :: e).drop 1 := by
    obtain ⟨c, a, rfl⟩ := List.exists_cons_of_ne_nil ha
    show _ ∈ a ++ 46 :: e
    simp
  have hpos : ∀ c ∈ e.reverse, decide (c ≠ 46) = true := by
    intro c hc
    rw [decide_eq_true_eq]
    rintro rfl
    exact he (List.mem_reverse.mp hc)
  rw [extension, if_pos hmem, List.reverse_append, List.reverse_cons, List.append_assoc, List.takeWhile_append_of_pos hpos]
  show 46 :: (e.reverse ++ []).reverse = _
  rw [List.append_nil, List.reverse_reverse]

abbrev logExtension : WString := wide (ascii ".log")

abbrev zipExtension : WString := wide (ascii ".zip")

theorem wide_append (a b : Bytes) : wide (a ++ b) = wide a ++ wide b := List.map_append

theorem extensions :
    extension (wide (ascii "tcp_redirector.log")) = logExtension ∧ logExtension ≠ zipExtension ∧
      (46 : BitVec 16) ∉ wide (ascii "log") ∧ (46 : BitVec 16) ∉ wide (ascii "zip") := by decide +kernel

theorem extension_logPath : extension x.logPath.name = logExtension := extensions.1

theorem extension_rotatedPath (ts : Bytes) : extension (x.rotatedPath ts).name = logExtension := by
  rw [Config.rotatedPath, wide_append]
  exact extension_append (e := wide (ascii "log")) (by simp [wide, ascii]) extensions.2.2.1

theorem extension_dest (ts : Bytes) : extension (x.dest ts).name = logExtension := extension_rotatedPath x ts

theorem extension_zipPath (ts : Bytes) : extension (x.zipPath ts).name = zipExtension := by
  rw [Config.zipPath, wide_append]
  exact extension_append (e := wide (ascii "zip")) (by simp [wide, ascii]) extensions.2.2.2

theorem logExtension_ne : logExtension ≠ zipExtension := extensions.2.1

/-! ## What holds a text -/

/-- The file is a log with this text, or a complete archive of one. -/
def Holds (p : Path) (f : File) (text : Bytes) : Prop :=
  (p.dir = x.logDir ∨ p.dir = x.settings.archive_dir) ∧
  (extension p.name = logExtension ∧ text <:+: f.content ∨
    extension p.name = zipExtension ∧ ∃ t, x.unzip f.content = some t ∧ text <:+: t)

def Kept (files : Files) (text : Bytes) : Prop := ∃ p f, files p = some f ∧ Holds x p f text

/-- When a file was so old at that time. -/
def limit (now : Int) : Int := now - DAY * x.settings.max_age_days.toInt

/-- It was in a file that `DeleteOldArchives` has deleted when it was older than
`max_age_days`. -/
def Expired (s : State) (text : Bytes) : Prop :=
  ∃ e ∈ s.expired, e.2.2.written < limit x e.1 ∧ Holds x e.2.1 e.2.2 text

/-- An age that fits is taken as it is. -/
theorem cutoff_eq {now : Int} (h : 0 ≤ x.settings.max_age_days.toInt) (h' : x.settings.max_age_days.toInt ≤ 10675199)
    (hnow : 0 ≤ now) (hnow' : now < 2 ^ 63) : cutoff x now = limit x now := by
  have hhours : (24 * x.settings.max_age_days).toInt = 24 * x.settings.max_age_days.toInt := by
    rw [BitVec.toInt_mul, show (24 : BitVec 32).toInt = 24 from rfl]
    exact Int.bmod_eq_of_le (by omega) (by omega)
  have hticks : (24 * x.settings.max_age_days.toInt * HOUR).bmod (2 ^ 64) = DAY * x.settings.max_age_days.toInt := by
    rw [HOUR, DAY, HOUR, SECOND]
    rw [Int.bmod_eq_of_le (by omega) (by omega)]
    omega
  rw [cutoff, hhours, hticks, limit, DAY, HOUR, SECOND]
  exact Int.bmod_eq_of_le (by omega) (by omega)

variable {x} {p : Path} {f f' : File} {text : Bytes} {files : Files}

theorem Holds.infix (h : Holds x p f text) (hp : extension p.name = logExtension) : text <:+: f.content := by
  rcases h.2 with ⟨-, h⟩ | ⟨hzip, -⟩
  · exact h
  · exact absurd (hp.symm.trans hzip) logExtension_ne

theorem Holds.archived (h : Holds x p f text) (hp : extension p.name = zipExtension) :
    ∃ t, x.unzip f.content = some t ∧ text <:+: t := by
  rcases h.2 with ⟨hlog, -⟩ | ⟨-, h⟩
  · exact absurd (hlog.symm.trans hp) logExtension_ne
  · exact h

theorem Kept.put (h : Kept x files text) (hp : ∀ f₀, files p = some f₀ → Holds x p f₀ text → Holds x p f text) :
    Kept x (files.put p f) text := by
  obtain ⟨q, f₀, hq, hholds⟩ := h
  by_cases heq : q = p
  · subst heq
    exact ⟨q, f, Files.put_self, hp f₀ hq hholds⟩
  · exact ⟨q, f₀, (Files.put_of_ne heq).trans hq, hholds⟩

theorem Kept.remove (h : Kept x files text)
    (hp : ∀ f₀, files p = some f₀ → Holds x p f₀ text → ∃ q f, q ≠ p ∧ files q = some f ∧ Holds x q f text) :
    Kept x (files.remove p) text := by
  obtain ⟨q, f₀, hq, hholds⟩ := h
  by_cases heq : q = p
  · subst heq
    obtain ⟨q', f, hne, hq', hholds'⟩ := hp f₀ hq hholds
    exact ⟨q', f, (Files.remove_of_ne hne).trans hq', hholds'⟩
  · exact ⟨q, f₀, (Files.remove_of_ne heq).trans hq, hholds⟩

theorem ne_of_extension {p q : Path} (hp : extension p.name = zipExtension) (hq : extension q.name = logExtension) : p ≠ q := by
  rintro rfl
  exact logExtension_ne (hq.symm.trans hp)

/-- An archive is not touched by the rename of a log. -/
theorem rename_zip {src dst d : Path} (hd : extension d.name = zipExtension) (hsrc : extension src.name = logExtension)
    (hdst : extension dst.name = logExtension) : files.rename src dst d = files d :=
  Files.rename_of_ne (ne_of_extension hd hsrc) (ne_of_extension hd hdst)

/-- A log goes to a name that is free. -/
theorem Kept.rename {src dst : Path} (h : Kept x files text) (hsrc : extension src.name = logExtension)
    (hdst : extension dst.name = logExtension) (hdir : dst.dir = x.logDir ∨ dst.dir = x.settings.archive_dir)
    (hfree : dst = src ∨ files dst = none) : Kept x (files.rename src dst) text := by
  obtain ⟨q, f, hq, hholds⟩ := h
  by_cases heq : q = src
  · subst heq
    have hdst' : files.rename q dst dst = some f := by rw [Files.rename_dst, hq, Option.some_or]
    exact ⟨dst, f, hdst', hdir, .inl ⟨hdst, hholds.infix hsrc⟩⟩
  · have hne : q ≠ dst := by
      rintro rfl
      rcases hfree with hdst | hfree
      · exact heq hdst
      · rw [hfree] at hq
        cases hq
    exact ⟨q, f, (Files.rename_of_ne heq hne).trans hq, hholds⟩

end

/-! ## The invariant -/

section

variable (x : Config)

/-- The log goes to a free name and is compressed to one that is free and that
no other compression writes to; an archive that is found is that of this log;
what is computed as the limit of the age is not later than it. -/
structure Careful (st : StepOf State Input Unit) : Prop where
  rotate : ∀ now f, st.input = .rotate now true → st.pre.phase = .idle → st.pre.files x.logPath = some f →
    st.pre.files (x.rotatedPath (timestamp (x.localtime (now.tdiv SECOND)))) = none
  compress : ∀ ts, x.settings.compress = true → st.input = .archive true → st.pre.phase = .renamed ts →
    (st.pre.files (x.rotatedPath ts)).isSome → st.pre.files (x.zipPath ts) = none ∧
      ∀ c ∈ st.pre.compressions, c.dest ≠ x.zipPath ts
  move : ∀ ts, x.settings.compress = false → st.input = .archive true → st.pre.phase = .renamed ts →
    x.dest ts = x.rotatedPath ts ∨ st.pre.files (x.dest ts) = none
  waited : ∀ ts f, st.input = .waited → st.pre.phase = .waiting ts → st.pre.files (x.zipPath ts) = some f →
    ∃ log, st.pre.files (x.rotatedPath ts) = some log ∧ x.unzip f.content = some log.content
  deleteOld : ∀ deleted, st.input = .deleteOld deleted → st.pre.phase = .cleaning → ∀ d ∈ deleted,
    cutoff x d.1 ≤ limit x d.1 + x.fileEpoch

/-- Whatever was to be rotated is kept. A compression that goes on has not yet
made an archive; one that was found is the log's. -/
structure Inv (s : State) : Prop where
  kept : ∀ text ∈ s.rotated, Kept x s.files text ∨ Expired x s text
  dests : ∀ d ∈ s.compressions.map (·.dest), extension d.name = zipExtension ∧
    ∀ f, s.files d = some f → x.unzip f.content = none
  distinct : (s.compressions.map (·.dest)).Nodup
  found : ∀ ts, s.phase = .found ts → ∃ zip log, s.files (x.zipPath ts) = some zip ∧
    s.files (x.rotatedPath ts) = some log ∧ x.unzip zip.content = some log.content

variable {x} {s : State}

/-- The destinations stay as they are where no archive is written to. -/
theorem Inv.dests_of (h : Inv x s) {files : Files}
    (hsame : ∀ d, extension d.name = zipExtension → ∀ f, files d = some f → s.files d = some f) :
    ∀ d ∈ s.compressions.map (·.dest), extension d.name = zipExtension ∧ ∀ f, files d = some f → x.unzip f.content = none := by
  intro d hd
  obtain ⟨hzip, hnone⟩ := h.dests d hd
  exact ⟨hzip, fun f hf => hnone f (hsame d hzip f hf)⟩

theorem Inv.rotate (h : Inv x s) {now : Int} {renamed : Bool}
    (hfree : ∀ f, renamed = true → s.files x.logPath = some f →
      s.files (x.rotatedPath (timestamp (x.localtime (now.tdiv SECOND)))) = none) :
    Inv x (rotate x now renamed s) := by
  rw [LogRotator.rotate]
  split
  next => exact ⟨h.kept, h.dests, h.distinct, fun ts hts => by cases hts⟩
  next f hf =>
    have hlog : Kept x s.files f.content := ⟨x.logPath, f, hf, .inl rfl, .inl ⟨extension_logPath x, List.infix_refl _⟩⟩
    have hkept : ∀ text, Kept x s.files text →
        Kept x (if renamed then
          s.files.rename x.logPath (x.rotatedPath (timestamp (x.localtime (now.tdiv SECOND)))) else s.files) text := by
      intro text htext
      split
      next hrenamed =>
        exact htext.rename (extension_logPath x) (extension_rotatedPath x _) (.inl rfl) (.inr (hfree f hrenamed hf))
      next => exact htext
    refine ⟨?_, ?_, h.distinct, fun ts hts => by cases hts⟩
    · intro text htext
      rcases List.mem_append.mp htext with htext | htext
      · exact (h.kept text htext).imp_left (hkept text)
      · rw [List.mem_singleton.mp htext]
        exact .inl (hkept _ hlog)
    · refine h.dests_of fun d hzip f hf => ?_
      dsimp only at hf
      split at hf
      · rwa [rename_zip hzip (extension_logPath x) (extension_rotatedPath x _)] at hf
      · exact hf

theorem Inv.archive (h : Inv x s) {ok : Bool} {ts : Bytes}
    (hcompress : x.settings.compress = true → ok = true → (s.files (x.rotatedPath ts)).isSome →
      s.files (x.zipPath ts) = none ∧ ∀ c ∈ s.compressions, c.dest ≠ x.zipPath ts)
    (hmove : x.settings.compress = false → ok = true → x.dest ts = x.rotatedPath ts ∨ s.files (x.dest ts) = none) :
    Inv x (archive x ok ts s) := by
  rw [LogRotator.archive]
  split
  next hc =>
    split
    next hstart =>
      obtain ⟨hfree, hother⟩ := hcompress hc hstart.2 hstart.1
      refine ⟨h.kept, ?_, ?_, fun ts hts => by cases hts⟩
      · intro d hd
        rw [List.map_append] at hd
        rcases List.mem_append.mp hd with hd | hd
        · exact h.dests d hd
        · rw [List.mem_singleton.mp hd]
          refine ⟨extension_zipPath x ts, fun f hf => ?_⟩
          rw [hfree] at hf
          cases hf
      · rw [List.map_append]
        refine List.nodup_append.mpr ⟨h.distinct, List.nodup_singleton _, fun d hd d' hd' => ?_⟩
        obtain ⟨c, hmem, rfl⟩ := List.mem_map.mp hd
        rw [List.mem_singleton.mp hd']
        exact hother c hmem
    next => exact ⟨h.kept, h.dests, h.distinct, fun ts hts => by cases hts⟩
  next hc =>
    have hdir : (x.dest ts).dir = x.logDir ∨ (x.dest ts).dir = x.settings.archive_dir := .inr rfl
    refine ⟨?_, ?_, h.distinct, fun ts hts => by cases hts⟩
    · intro text htext
      refine (h.kept text htext).imp_left fun hkept => ?_
      dsimp only
      split
      next hok =>
        exact hkept.rename (extension_rotatedPath x ts) (extension_dest x ts) hdir (hmove (Bool.eq_false_iff.mpr hc) hok)
      next => exact hkept
    · refine h.dests_of fun d hzip f hf => ?_
      dsimp only at hf
      split at hf
      · rwa [rename_zip hzip (extension_rotatedPath x ts) (extension_dest x ts)] at hf
      · exact hf

/-- The log may go: its archive is complete. -/
theorem Inv.remove (h : Inv x s) {ts : Bytes} (hphase : s.phase = .found ts) :
    Inv x { s with files := s.files.remove (x.rotatedPath ts), phase := .cleaning } := by
  obtain ⟨zip, log, hzip, hlog, hunzip⟩ := h.found ts hphase
  have hne : x.zipPath ts ≠ x.rotatedPath ts := ne_of_extension (extension_zipPath x ts) (extension_rotatedPath x ts)
  refine ⟨?_, ?_, h.distinct, fun ts hts => by cases hts⟩
  · intro text htext
    refine (h.kept text htext).imp_left fun hkept => hkept.remove fun f hf hholds => ?_
    have hsame : f = log := Option.some.inj (hf.symm.trans hlog)
    have hinfix : text <:+: log.content := hsame ▸ hholds.infix (extension_rotatedPath x ts)
    exact ⟨x.zipPath ts, zip, hne, hzip, .inr rfl, .inr ⟨extension_zipPath x ts, log.content, hunzip, hinfix⟩⟩
  · refine h.dests_of fun d hzip f hf => ?_
    dsimp only at hf
    rwa [Files.remove_of_ne (ne_of_extension hzip (extension_rotatedPath x ts))] at hf

theorem written_of_isOld {now : Int} {p : Path} {f : File} (h : isOld x now p f = true)
    (hlim : cutoff x now ≤ limit x now + x.fileEpoch) : f.written < limit x now := by
  have hlt : f.written + x.fileEpoch < cutoff x now := of_decide_eq_true (Bool.and_eq_true_iff.mp h).2
  omega

/-- A file that is deleted because of its age is counted as such. -/
theorem Inv.deleteOne (h : Inv x s) (hphase : s.phase = .cleaning) {d : Int × Path}
    (hlim : cutoff x d.1 ≤ limit x d.1 + x.fileEpoch) :
    Inv x (deleteOne x s d) ∧ (deleteOne x s d).phase = .cleaning := by
  rw [LogRotator.deleteOne]
  split
  next => exact ⟨h, hphase⟩
  next f hf =>
    split
    next hold =>
      refine ⟨⟨?_, ?_, h.distinct, fun ts hts => ?_⟩, hphase⟩
      · intro text htext
        rcases h.kept text htext with ⟨q, f', hq, hholds⟩ | ⟨e, he, hage, hholds⟩
        · by_cases heq : q = d.2
          · subst heq
            have hsame : f' = f := Option.some.inj (hq.symm.trans hf)
            exact .inr ⟨(d.1, d.2, f), List.mem_append_right _ (List.mem_singleton_self _), written_of_isOld hold hlim,
              hsame ▸ hholds⟩
          · exact .inl ⟨q, f', (Files.remove_of_ne heq).trans hq, hholds⟩
        · exact .inr ⟨e, List.mem_append_left _ he, hage, hholds⟩
      · refine h.dests_of fun d' _ f' hf' => ?_
        dsimp only at hf'
        rw [Files.remove, Function.update_apply] at hf'
        split at hf'
        · cases hf'
        · exact hf'
      · rw [hphase] at hts
        cases hts
    next => exact ⟨h, hphase⟩

theorem Inv.deleteOld (h : Inv x s) (hphase : s.phase = .cleaning) {deleted : List (Int × Path)}
    (hlim : ∀ d ∈ deleted, cutoff x d.1 ≤ limit x d.1 + x.fileEpoch) :
    Inv x { deleted.foldl (LogRotator.deleteOne x) s with phase := .reopening } := by
  induction deleted generalizing s with
  | nil => exact ⟨h.kept, h.dests, h.distinct, fun ts hts => by cases hts⟩
  | cons d deleted ih =>
    obtain ⟨hone, hphase'⟩ := h.deleteOne hphase (hlim d List.mem_cons_self)
    exact ih hone hphase' fun d' hd' => hlim d' (List.mem_cons_of_mem _ hd')

theorem Inv.openLog (h : Inv x s) (opened : Bool) (now : Int) :
    Inv x { openLog x opened now s with phase := .idle } := by
  rw [LogRotator.openLog]
  split
  next hnew =>
    refine ⟨?_, ?_, h.distinct, fun ts hts => by cases hts⟩
    · intro text htext
      refine (h.kept text htext).imp_left fun hkept => hkept.put fun f hf => ?_
      rw [hnew.2] at hf
      cases hf
    · refine h.dests_of fun d hzip f hf => ?_
      dsimp only at hf
      rwa [Files.put_of_ne (ne_of_extension hzip (extension_logPath x))] at hf
  next => exact ⟨h.kept, h.dests, h.distinct, fun ts hts => by cases hts⟩

/-- What is appended leaves what was there. -/
theorem Inv.write (h : Inv x s) (hphase : s.phase = .idle) {f : File} (hf : s.files x.logPath = some f) (text : Bytes)
    (now : Int) : Inv x { s with files := s.files.put x.logPath ⟨f.content ++ text, now⟩ } := by
  refine ⟨?_, ?_, h.distinct, fun ts hts => ?_⟩
  · intro text' htext
    refine (h.kept text' htext).imp_left fun hkept => hkept.put fun f₀ hf₀ hholds => ?_
    have hsame : f₀ = f := Option.some.inj (hf₀.symm.trans hf)
    have hinfix : text' <:+: f.content := hsame ▸ hholds.infix (extension_logPath x)
    exact ⟨hholds.1, .inl ⟨extension_logPath x, hinfix.trans (List.prefix_append ..).isInfix⟩⟩
  · refine h.dests_of fun d hzip f hf => ?_
    dsimp only at hf
    rwa [Files.put_of_ne (ne_of_extension hzip (extension_logPath x))] at hf
  · have hts' : s.phase = .found ts := hts
    rw [hphase] at hts'
    cases hts'

/-- A compression writes where no archive is yet. -/
theorem Inv.putDest (h : Inv x s) {d : Path} (hd : d ∈ s.compressions.map (·.dest)) {cs : List Compression}
    (hsub : (cs.map (·.dest)).Sublist (s.compressions.map (·.dest))) {f : File}
    (hf : d ∈ cs.map (·.dest) → x.unzip f.content = none) :
    Inv x { s with files := s.files.put d f, compressions := cs } := by
  obtain ⟨hzip, hnone⟩ := h.dests d hd
  refine ⟨?_, ?_, hsub.nodup h.distinct, fun ts hts => ?_⟩
  · intro text htext
    refine (h.kept text htext).imp_left fun hkept => hkept.put fun f₀ hf₀ hholds => ?_
    obtain ⟨t, ht, -⟩ := hholds.archived hzip
    rw [hnone f₀ hf₀] at ht
    cases ht
  · intro d' hd'
    obtain ⟨hzip', hnone'⟩ := h.dests d' (hsub.subset hd')
    refine ⟨hzip', fun f' hf' => ?_⟩
    dsimp only at hf'
    rw [Files.put, Function.update_apply] at hf'
    split at hf'
    next heq =>
      cases hf'
      exact hf (heq ▸ hd')
    next => exact hnone' f' hf'
  · obtain ⟨zip, log, hzip', hlog, hunzip⟩ := h.found ts hts
    have hne : x.zipPath ts ≠ d := by
      rintro rfl
      rw [hnone zip hzip'] at hunzip
      cases hunzip
    have hne' : x.rotatedPath ts ≠ d := (ne_of_extension hzip (extension_rotatedPath x ts)).symm
    exact ⟨zip, log, (Files.put_of_ne hne).trans hzip', (Files.put_of_ne hne').trans hlog, hunzip⟩

theorem set_of_getElem {α : Type} {l : List α} {k : Nat} {a : α} (h : l[k]? = some a) : l.set k a = l := by
  obtain ⟨hk, rfl⟩ := List.getElem?_eq_some_iff.mp h
  exact List.set_getElem_self hk

theorem mem_dests {k : Nat} {c : Compression} (hc : s.compressions[k]? = some c) : c.dest ∈ s.compressions.map (·.dest) :=
  List.mem_map_of_mem (List.mem_of_getElem? hc)

theorem Inv.step (h : Inv x s) (i : Input) (hcareful : Careful x (stepOf (step x) i s)) : Inv x (step x i s).1 := by
  unfold LogRotator.step
  split
  next now renamed hphase =>
    refine h.rotate fun f hrenamed hf => ?_
    exact hcareful.rotate now f (hrenamed ▸ rfl) hphase hf
  next ok ts hphase =>
    refine h.archive ?_ ?_
    · exact fun hc hok => hcareful.compress ts hc (hok ▸ rfl) hphase
    · exact fun hc hok => hcareful.move ts hc (hok ▸ rfl) hphase
  next ts hphase =>
    refine ⟨h.kept, h.dests, h.distinct, fun ts' hts' => ?_⟩
    dsimp only at hts'
    split at hts'
    next hfound =>
      cases hts'
      obtain ⟨f, hf⟩ := Option.isSome_iff_exists.mp hfound
      obtain ⟨log, hlog, hunzip⟩ := hcareful.waited ts f rfl hphase hf
      exact ⟨f, log, hf, hlog, hunzip⟩
    next => cases hts'
  next ok ts hphase =>
    cases ok with
    | true => exact h.remove hphase
    | false => exact ⟨h.kept, h.dests, h.distinct, fun ts hts => by cases hts⟩
  next deleted hphase => exact h.deleteOld hphase (hcareful.deleteOld deleted rfl hphase)
  next opened now _ => exact h.openLog opened now
  next =>
    refine ⟨h.kept, h.dests, h.distinct, fun ts hts => ?_⟩
    dsimp only at hts
    split at hts <;> cases hts
  next text now hphase =>
    split
    next => exact h
    next f hf => exact h.write hphase hf text now
  next k =>
    split
    next => exact h
    next c hc =>
      have hdests : (s.compressions.set k { c with text := (s.files c.source).map (·.content) }).map (·.dest) =
          s.compressions.map (·.dest) := by
        rw [List.map_set]
        exact set_of_getElem (by rw [List.getElem?_map, hc, Option.map_some])
      exact ⟨h.kept, fun d hd => h.dests d (hdests ▸ hd), hdests ▸ h.distinct, h.found⟩
  next k content now =>
    split
    next => exact h
    next c hc =>
      split
      next hnone => exact h.putDest (mem_dests hc) (List.Sublist.refl _) (fun _ => hnone)
      next => exact h
  next k content now =>
    split
    next => exact h
    next c hc =>
      split
      next hdone =>
        refine h.putDest (mem_dests hc) ((List.eraseIdx_sublist ..).map _) fun hmem => ?_
        -- The destinations are distinct, and this one is removed.
        have hk : (s.compressions.map (·.dest))[k]? = some c.dest := by rw [List.getElem?_map, hc, Option.map_some]
        rw [← List.eraseIdx_map] at hmem
        obtain ⟨j, hne, hj⟩ := List.mem_eraseIdx_iff_getElem?.mp hmem
        have hlt : k < (s.compressions.map (·.dest)).length := (List.getElem?_eq_some_iff.mp hk).1
        exact absurd ((List.getElem?_inj hlt h.distinct).mp (hk.trans hj.symm)).symm hne
      next => exact h
  next k =>
    have hsub : ((s.compressions.eraseIdx k).map (·.dest)).Sublist (s.compressions.map (·.dest)) :=
      (List.eraseIdx_sublist ..).map _
    exact ⟨h.kept, fun d hd => h.dests d (hsub.subset hd), hsub.nodup h.distinct, h.found⟩
  next => exact h

end

/-- In a run of careful steps, every log that was to be rotated is kept in
every state, but for what was in files deleted because of their age. -/
theorem rotated_kept (x : Config) (files : Files) (is : List Input)
    (hcareful : ∀ st ∈ trace (step x) is { files := files }, Careful x st) :
    ∀ text ∈ (run (step x) is { files := files }).rotated,
      Kept x (run (step x) is { files := files }).files text ∨ Expired x (run (step x) is { files := files }) text := by
  have hstart : Inv x { files := files } := by
    refine ⟨fun text htext => absurd htext List.not_mem_nil, fun d hd => absurd hd List.not_mem_nil, List.nodup_nil, ?_⟩
    exact fun ts hts => by cases hts
  exact (run_induct_of (P := Inv x) (fun i s h hC => h.step i hC) is hstart hcareful).kept

/-! ## Two runs -/

/-- Archives that are a mark and the text. -/
def smallConfig : Config where
  settings := { archive_dir := wide (ascii "archive") }
  logDir := wide (ascii "logs")
  localtime t := ⟨126, 0, 1, 3, (t / 60).toNat % 60⟩
  unzip content := if content.take 2 = ascii "PK" then some (content.drop 2) else none

/-- With 21350000 days every file there is counts as old. -/
example :
    let now := 17000000000000000
    now < cutoff { smallConfig with settings := { smallConfig.settings with max_age_days := 21350000 } } now := by
  decide

/-- A log and nothing else. -/
def smallFiles : Files := Files.put smallConfig.logPath ⟨ascii "text", 0⟩ fun _ => none

/-- The compression is done before the wait ends. -/
def compressed : List Input :=
  [.rotate 0 true, .archive true, .read 0, .complete 0 (ascii "PKtext") 1, .waited, .remove true,
    .deleteOld [(2, smallConfig.logPath)], .reopen true 2]

/-- Only four steps have something to see to. -/
theorem careful_of {x : Config} {st : StepOf State Input Unit} (hrotate : ∀ now, st.input ≠ .rotate now true)
    (harchive : st.input ≠ .archive true) (hwaited : st.input ≠ .waited)
    (hdelete : ∀ deleted, st.input ≠ .deleteOld deleted) : Careful x st where
  rotate now _ h := absurd h (hrotate now)
  compress _ _ h := absurd h harchive
  move _ _ h := absurd h harchive
  waited _ _ h := absurd h hwaited
  deleteOld deleted h := absurd h (hdelete deleted)

theorem rotated_kept_compressed :
    (run (step smallConfig) compressed { files := smallFiles }).rotated = [ascii "text"] ∧
    (Kept smallConfig (run (step smallConfig) compressed { files := smallFiles }).files (ascii "text") ∨
      Expired smallConfig (run (step smallConfig) compressed { files := smallFiles }) (ascii "text")) := by
  have hrotated : (run (step smallConfig) compressed { files := smallFiles }).rotated = [ascii "text"] := by
    decide +kernel
  refine ⟨hrotated, rotated_kept smallConfig smallFiles compressed ?_ _ (by rw [hrotated]; simp)⟩
  intro st hst
  simp only [compressed, trace, List.mem_cons, List.not_mem_nil, or_false] at hst
  rcases hst with rfl | rfl | rfl | rfl | rfl | rfl | rfl | rfl
  · refine ⟨fun now f hinput hphase hf => ?_, fun ts _ hinput => ?_, fun ts _ hinput => ?_, fun ts f hinput => ?_,
      fun deleted hinput => ?_⟩ <;> cases hinput
    decide +kernel
  · refine ⟨fun now f hinput => ?_, fun ts _ _ hphase hlog => ?_, fun ts hmove => ?_, fun ts f hinput => ?_,
      fun deleted hinput => ?_⟩
    · cases hinput
    · cases hphase
      exact ⟨by decide +kernel, fun c hc => absurd hc List.not_mem_nil⟩
    · exact absurd hmove (by decide)
    · cases hinput
    · cases hinput
  · exact careful_of (fun now h => by cases h) (fun h => by cases h) (fun h => by cases h) (fun d h => by cases h)
  · exact careful_of (fun now h => by cases h) (fun h => by cases h) (fun h => by cases h) (fun d h => by cases h)
  · refine ⟨fun now f hinput => ?_, fun ts _ hinput => ?_, fun ts _ hinput => ?_, fun ts f _ hphase hf => ?_,
      fun deleted hinput => ?_⟩
    · cases hinput
    · cases hinput
    · cases hinput
    · cases hphase
      refine ⟨⟨ascii "text", 0⟩, by decide +kernel, ?_⟩
      rw [← Option.some.inj hf]
      decide +kernel
    · cases hinput
  · exact careful_of (fun now h => by cases h) (fun h => by cases h) (fun h => by cases h) (fun d h => by cases h)
  · refine ⟨fun now f hinput => ?_, fun ts _ hinput => ?_, fun ts _ hinput => ?_, fun ts f hinput => ?_,
      fun deleted hinput _ d hd => ?_⟩ <;> cases hinput
    obtain rfl := List.mem_singleton.mp hd
    rw [cutoff_eq smallConfig (by decide) (by decide) (by decide) (by decide)]
    exact Int.le_of_eq (Int.add_zero _).symm
  · exact careful_of (fun now h => by cases h) (fun h => by cases h) (fun h => by cases h) (fun d h => by cases h)

/-- The wait ends while the archive is not complete, and the compression fails. -/
def interrupted : List Input :=
  [.rotate 0 true, .archive true, .read 0, .partly 0 (ascii "P") 1, .waited, .remove true, .fails 0, .deleteOld [],
    .reopen true 31]

theorem rotated_lost :
    ascii "text" ∈ (run (step smallConfig) interrupted { files := smallFiles }).rotated ∧
    ¬ Kept smallConfig (run (step smallConfig) interrupted { files := smallFiles }).files (ascii "text") ∧
    ¬ Expired smallConfig (run (step smallConfig) interrupted { files := smallFiles }) (ascii "text") := by
  refine ⟨by decide +kernel, ?_, ?_⟩
  · rintro ⟨p, f, hf, hholds⟩
    have hfiles : (run (step smallConfig) interrupted { files := smallFiles }).files =
        Files.put smallConfig.logPath ⟨[], 31⟩
          (Files.remove (smallConfig.rotatedPath (timestamp (smallConfig.localtime 0)))
            (Files.put (smallConfig.zipPath (timestamp (smallConfig.localtime 0))) ⟨ascii "P", 1⟩
              (Files.rename smallConfig.logPath (smallConfig.rotatedPath (timestamp (smallConfig.localtime 0)))
                smallFiles))) := rfl
    rw [hfiles, Files.put, Function.update_apply] at hf
    split at hf
    next hp =>
      -- The new log is empty.
      subst hp
      have hinfix := hholds.infix (extension_logPath _)
      rw [← Option.some.inj hf] at hinfix
      exact absurd hinfix (by decide +kernel)
    next hlog =>
      rw [Files.remove, Function.update_apply] at hf
      split at hf
      next => cases hf
      next hrotated =>
        rw [Files.put, Function.update_apply] at hf
        split at hf
        next hp =>
          -- The archive is not complete.
          subst hp
          obtain ⟨t, ht, -⟩ := hholds.archived (extension_zipPath _ _)
          have hnone : smallConfig.unzip f.content = none := by
            rw [← Option.some.inj hf]
            decide +kernel
          rw [hnone] at ht
          cases ht
        next =>
          rw [Files.rename_of_ne hlog hrotated, smallFiles, Files.put_of_ne hlog] at hf
          cases hf
  · rintro ⟨e, he, -⟩
    have hexpired : (run (step smallConfig) interrupted { files := smallFiles }).expired = [] := rfl
    rw [hexpired] at he
    cases he

end TR.Impl.Service.LogRotator
