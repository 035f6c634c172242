import TcpRedirector.Impl.Gui.IpcClient
import TcpRedirector.Proof.Framework.GetString

/-!
# Reading a reply

`ReadMessageAsync` decodes what each read returns by itself
(`readMessageAsync_eq`). So a reply is read back exactly if none of its
characters lies across the end of a full buffer (`read_back_iff`).
-/

namespace TR.Impl.Gui

open Service (Platform)

/-- The reads of a text: all but the last fill the buffer. -/
structure Segments (text : Bytes) (reads : List Bytes) : Prop where
  flatten : reads.flatten = text
  full : ∀ buf ∈ reads.dropLast, buf.length = bufLength
  fits : ∀ buf ∈ reads, buf.length ≤ bufLength

section

variable {g : Runtime} {buf : Bytes} {reads : List Bytes} {text : Bytes} {cs : List Char}

theorem Segments.first (h : Segments text (buf :: reads)) (hreads : reads ≠ []) : buf.length = bufLength := by
  refine h.full buf ?_
  rw [List.dropLast_cons_of_ne_nil hreads]
  exact List.mem_cons_self

theorem Segments.rest (h : Segments text (buf :: reads)) (hreads : reads ≠ []) : Segments reads.flatten reads where
  flatten := rfl
  full buf' hbuf' := h.full buf' (by rw [List.dropLast_cons_of_ne_nil hreads]; exact List.mem_cons_of_mem _ hbuf')
  fits buf' hbuf' := h.fits buf' (List.mem_cons_of_mem _ hbuf')

theorem textOrNull_of_ne_nil {sb : WString} (h : sb ≠ []) : textOrNull sb = some sb := by
  rw [textOrNull, if_neg]
  simpa using h

/-- After a full buffer comes another read. -/
theorem readMessageAsync_full (sb : WString) (hbuf : buf.length = bufLength) (reads : List Bytes) :
    readMessageAsync g sb (buf :: reads) = readMessageAsync g (sb ++ g.decode buf) reads := by
  have hgoes : afterRead g sb buf = .goesOn (sb ++ g.decode buf) := by
    have hpos : buf.length ≠ 0 := by rw [hbuf]; decide
    rw [afterRead, if_neg hpos]
    exact if_neg (by omega)
  rw [readMessageAsync, hgoes]

/-- After any other read the text is complete. -/
theorem readMessageAsync_last (hg : g.decode = utf8GetString) {sb : WString} (hfits : buf.length ≤ bufLength)
    (hne : sb ++ utf8GetString buf ≠ []) : readMessageAsync g sb [buf] = some (sb ++ utf8GetString buf) := by
  by_cases hfull : buf.length = bufLength
  · rw [readMessageAsync_full sb hfull, hg]
    exact textOrNull_of_ne_nil hne
  · rw [readMessageAsync, afterRead]
    by_cases hempty : buf = []
    · subst hempty
      rw [show utf8GetString [] = [] from rfl, List.append_nil] at hne ⊢
      exact textOrNull_of_ne_nil hne
    · have hpos := List.length_pos_of_ne_nil hempty
      rw [if_neg (by omega), if_pos (by omega), hg]

theorem append_getString_ne_nil {sb : WString} (h : sb ≠ [] ∨ buf ≠ []) : sb ++ utf8GetString buf ≠ [] := by
  intro hnil
  obtain ⟨hsb, hbuf⟩ := List.append_eq_nil_iff.mp hnil
  rcases h with h | h
  · exact h hsb
  · exact utf8GetString_ne_nil h hbuf

/-- What the reads are decoded to, one by one. -/
theorem readMessageAsync_eq (hg : g.decode = utf8GetString) (h : Segments text reads) {sb : WString}
    (hne : sb ≠ [] ∨ text ≠ []) :
    readMessageAsync g sb reads = some (sb ++ reads.flatMap utf8GetString) := by
  induction reads generalizing sb text with
  | nil =>
    have hsb : sb ≠ [] := hne.resolve_right (absurd h.flatten.symm)
    rw [readMessageAsync, textOrNull_of_ne_nil hsb]
    simp
  | cons buf reads ih =>
    by_cases hreads : reads = []
    · subst hreads
      have htext : buf = text := by simpa using h.flatten
      subst htext
      rw [readMessageAsync_last hg (h.fits buf List.mem_cons_self) (append_getString_ne_nil hne), List.flatMap_singleton]
    · have hlength := h.first hreads
      have hbuf : buf ≠ [] := by
        rintro rfl
        cases hlength
      have hdecoded : sb ++ utf8GetString buf ≠ [] := append_getString_ne_nil (.inr hbuf)
      rw [readMessageAsync_full sb hlength, hg, ih (h.rest hreads) (.inl hdecoded), List.flatMap_cons, List.append_assoc]

/-- In a text that fits into the buffer there is no end to split at. -/
theorem endsAt_of_fits (hfits : (encodeUtf8 cs).length ≤ bufLength) {k : Nat} (hk : bufLength * k ≤ (encodeUtf8 cs).length) :
    EndsAt cs (bufLength * k) := by
  have hcases : bufLength * k = 0 ∨ bufLength * k = (encodeUtf8 cs).length := by
    rw [show bufLength = 4096 from rfl] at hk hfits ⊢
    omega
  rcases hcases with hk | hk
  · rw [hk]
    exact endsAt_zero cs
  · rw [hk]
    exact endsAt_length cs

/-- Behind a full buffer the others follow from its end on. -/
theorem forall_endsAt_append {pre post : List Char} (hlength : (encodeUtf8 pre).length = bufLength) :
    (∀ k, bufLength * k ≤ (encodeUtf8 (pre ++ post)).length → EndsAt (pre ++ post) (bufLength * k)) ↔
      ∀ k, bufLength * k ≤ (encodeUtf8 post).length → EndsAt post (bufLength * k) := by
  have hstep (k : Nat) : bufLength * (k + 1) = (encodeUtf8 pre).length + bufLength * k := by
    rw [Nat.mul_succ, hlength, Nat.add_comm]
  rw [encodeUtf8_append, List.length_append]
  constructor
  · intro hall k hk
    refine endsAt_append.mp (hstep k ▸ hall (k + 1) ?_)
    rw [hstep]
    omega
  · intro hall k hk
    cases k with
    | zero => exact endsAt_zero _
    | succ k =>
      rw [hstep] at hk ⊢
      exact endsAt_append.mpr (hall k (by omega))

/-- The reads are in UTF-8 exactly if a character ends wherever a full buffer does. -/
theorem Segments.utf8_iff (h : Segments (encodeUtf8 cs) reads) :
    (∀ buf ∈ reads, Utf8 buf) ↔ ∀ k, bufLength * k ≤ (encodeUtf8 cs).length → EndsAt cs (bufLength * k) := by
  induction reads generalizing cs with
  | nil =>
    have hnil : (encodeUtf8 cs).length = 0 := by rw [← h.flatten]; rfl
    exact ⟨fun _ k hk => endsAt_of_fits (by omega) hk, nofun⟩
  | cons buf reads ih =>
    by_cases hreads : reads = []
    · subst hreads
      have htext : buf = encodeUtf8 cs := by simpa using h.flatten
      have hfits := h.fits buf List.mem_cons_self
      subst htext
      exact iff_of_true (List.forall_mem_singleton.mpr (utf8_encodeUtf8 cs)) fun _ => endsAt_of_fits hfits
    · have hlength := h.first hreads
      have hflatten : encodeUtf8 cs = buf ++ reads.flatten := h.flatten.symm
      rw [List.forall_mem_cons]
      by_cases hfirst : Utf8 buf
      · obtain ⟨pre, hpre⟩ := hfirst
        have hpre' : buf = encodeUtf8 pre := hpre
        obtain ⟨post, rfl⟩ := prefix_of_encodeUtf8 (hpre' ▸ hflatten)
        have hpost : reads.flatten = encodeUtf8 post := by
          rw [encodeUtf8_append, hpre'] at hflatten
          exact (List.append_cancel_left hflatten).symm
        rw [forall_endsAt_append (hpre' ▸ hlength), ← ih (hpost ▸ h.rest hreads)]
        exact and_iff_right ⟨pre, hpre⟩
      · have hends := (utf8_iff_endsAt hflatten).not.mp hfirst
        rw [hlength, ← Nat.mul_one bufLength] at hends
        refine iff_of_false (fun hall => hfirst hall.1) fun hall => hends (hall 1 ?_)
        rw [hflatten, List.length_append]
        omega

theorem encodeUtf8_ne_nil (h : cs ≠ []) : encodeUtf8 cs ≠ [] := by
  cases cs with
  | nil => exact absurd rfl h
  | cons c cs =>
    intro hnil
    exact encodeChar_ne_nil c (List.append_eq_nil_iff.mp hnil).1

/-- An empty reply is read as none. -/
theorem readMessageAsync_nil (h : Segments [] reads) : readMessageAsync g [] reads = none := by
  cases reads with
  | nil => rfl
  | cons buf reads =>
    have hbuf : buf = [] := (List.append_eq_nil_iff.mp h.flatten).1
    subst hbuf
    rfl

end

namespace Demo

/-- .NET, as far as it is used here. -/
def reader : Runtime where
  parse _ := none
  serialize := Json.compact
  decode := utf8GetString
  toLowerInvariant s := s

/-- A reply with an "é" behind so many letters. -/
def reply (n : Nat) : List Char := List.replicate n 'a' ++ ['é']

theorem encodeUtf8_letters (n : Nat) : encodeUtf8 (List.replicate n 'a') = List.replicate n 97 := by
  induction n with
  | zero => rfl
  | succ n ih => rw [List.replicate_succ, encodeUtf8_cons, ih]; rfl

theorem encodeUtf8_reply (n : Nat) : encodeUtf8 (reply n) = List.replicate n 97 ++ [0xC3, 0xA9] := by
  rw [reply, encodeUtf8_append, encodeUtf8_letters]
  rfl

theorem segments_two {text first second : Bytes} (htext : text = first ++ second) (hfirst : first.length = bufLength)
    (hsecond : second.length ≤ bufLength) : Segments text [first, second] where
  flatten := by simp [htext]
  full := by simpa using hfirst
  fits := by simpa [hfirst] using hsecond

/-- The "é" is the first character of the second read. -/
theorem segments_whole : Segments (encodeUtf8 (reply 4096)) [List.replicate 4096 97, [0xC3, 0xA9]] :=
  segments_two (encodeUtf8_reply 4096) List.length_replicate (by decide)

/-- The "é" lies across the two reads. -/
theorem segments_split : Segments (encodeUtf8 (reply 4095)) [List.replicate 4095 97 ++ [0xC3], [0xA9]] := by
  refine segments_two ?_ ?_ (by decide)
  · rw [encodeUtf8_reply, List.append_assoc]
    rfl
  · rw [List.length_append, List.length_replicate]
    rfl

end Demo

/-- A reply is read back exactly if it is not empty and a character ends at
every multiple of the buffer's length up to that of the reply. -/
theorem read_back_iff (g : Runtime) (hg : g.decode = utf8GetString) (cs : List Char) (reads : List Bytes)
    (h : Segments (encodeUtf8 cs) reads) :
    readMessageAsync g [] reads = some (encodeUtf16 cs) ↔
      cs ≠ [] ∧ ∀ k, bufLength * k ≤ (encodeUtf8 cs).length → EndsAt cs (bufLength * k) := by
  by_cases hcs : cs = []
  · subst hcs
    rw [readMessageAsync_nil h]
    exact ⟨nofun, fun hne => absurd rfl hne.1⟩
  · rw [readMessageAsync_eq hg h (.inr (encodeUtf8_ne_nil hcs)), List.nil_append, Option.some.injEq,
      flatMap_utf8GetString_iff h.flatten, h.utf8_iff]
    exact ⟨fun hall => ⟨hcs, hall⟩, fun hall => hall.2⟩

theorem read_back_whole :
    readMessageAsync Demo.reader [] [List.replicate 4096 97, [0xC3, 0xA9]] = some (encodeUtf16 (Demo.reply 4096)) := by
  refine (read_back_iff Demo.reader rfl (Demo.reply 4096) _ Demo.segments_whole).mpr ⟨?_, fun k hk => ?_⟩
  · rw [Demo.reply]
    exact List.append_ne_nil_of_right_ne_nil _ (List.cons_ne_nil _ _)
  · rw [Demo.encodeUtf8_reply, List.length_append, List.length_replicate] at hk
    have hk' : k = 0 ∨ k = 1 := by
      simp only [bufLength, List.length_cons, List.length_nil] at hk
      omega
    rcases hk' with rfl | rfl
    · exact endsAt_zero _
    · refine ⟨List.replicate 4096 'a', List.prefix_append _ _, ?_⟩
      rw [Demo.encodeUtf8_letters, List.length_replicate]
      rfl

/-- A character across two reads becomes two replacement characters. -/
theorem split_reply_replaced :
    Segments (encodeUtf8 (Demo.reply 4095)) [List.replicate 4095 97 ++ [0xC3], [0xA9]] ∧
    readMessageAsync Demo.reader [] [List.replicate 4095 97 ++ [0xC3], [0xA9]] =
      some (encodeUtf16 (List.replicate 4095 'a') ++ [0xFFFD, 0xFFFD]) ∧
    readMessageAsync Demo.reader [] [List.replicate 4095 97 ++ [0xC3], [0xA9]] ≠ some (encodeUtf16 (Demo.reply 4095)) := by
  have hne : encodeUtf8 (Demo.reply 4095) ≠ [] := by
    rw [Demo.encodeUtf8_reply]
    exact List.append_ne_nil_of_right_ne_nil _ (List.cons_ne_nil _ _)
  have hread : readMessageAsync Demo.reader [] [List.replicate 4095 97 ++ [0xC3], [0xA9]] =
      some (encodeUtf16 (List.replicate 4095 'a') ++ [0xFFFD, 0xFFFD]) := by
    rw [readMessageAsync_eq rfl Demo.segments_split (.inr hne), ← Demo.encodeUtf8_letters]
    simp only [List.nil_append, List.flatMap_cons, List.flatMap_nil, List.append_nil, utf8GetString_encodeUtf8_append]
    rw [List.append_assoc]
    rfl
  refine ⟨Demo.segments_split, hread, ?_⟩
  rw [hread, Demo.reply, encodeUtf16_append, ne_eq, Option.some.injEq, List.append_cancel_left_eq]
  decide

end TR.Impl.Gui
