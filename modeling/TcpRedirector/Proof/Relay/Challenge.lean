import TcpRedirector.Impl.Relay.Response
import TcpRedirector.Proof.Framework.Bytes
import TcpRedirector.TCB.Http

/-!
# The challenge of a 407

`Parse407Challenge` looks for four spellings in the whole response. It reads
the challenge of the response exactly if the spelling it finds is at the head
of a header's line and goes on with that token, or if there is neither
(`readsChallenge_iff`).
-/

namespace TR.Impl

open Http

/-! ## Lines -/

/-- The pattern is found only behind `l`. -/
def Skips (pat l : Bytes) : Prop := ∀ rest, find pat (l ++ rest) = (find pat rest).map (· + l.length)

theorem skips_nil (pat : Bytes) : Skips pat [] := by
  intro rest
  show find pat rest = (find pat rest).map (· + 0)
  cases find pat rest <;> rfl

theorem Skips.append {pat l l' : Bytes} (h : Skips pat l) (h' : Skips pat l') : Skips pat (l ++ l') := by
  intro rest
  rw [List.append_assoc, h, h', Option.map_map, List.length_append]
  congr 1
  funext n
  show n + l'.length + l.length = n + (l.length + l'.length)
  omega

theorem skips_line {pat l : Bytes} (hpat : (13 : Byte) ∉ pat ∧ (10 : Byte) ∉ pat) (hl : find pat l = none) :
    Skips pat (l ++ crlf) := by
  have hlf : find pat ([] : Bytes) = none := by
    cases pat with
    | nil => cases l <;> simp [find] at hl
    | cons x pat => rfl
  intro rest
  rw [List.append_assoc, crlf, List.cons_append, find_append_cons hpat.1 hl, List.cons_append,
    ← List.nil_append (10 :: _), find_append_cons hpat.2 hlf, Option.map_map, List.length_append]
  congr 1
  funext n
  show n + 1 + (l.length + 1) = n + (l.length + 2)
  omega

section

variable (r : Response)

/-- A pattern that is in no line up to these headers is found behind them. -/
theorem skips_before {pat : Bytes} (hpat : (13 : Byte) ∉ pat ∧ (10 : Byte) ∉ pat) (hstatus : find pat r.statusLine = none)
    {headers : List Header} (hheaders : ∀ h ∈ headers, find pat h.text = none) : Skips pat (r.before headers) := by
  have hlines : Skips pat (headers.flatMap fun h => h.text ++ crlf) := by
    induction headers with
    | nil => exact skips_nil pat
    | cons h headers ih =>
      rw [List.flatMap_cons]
      exact (skips_line hpat (hheaders h List.mem_cons_self)).append
        (ih fun h' hmem => hheaders h' (List.mem_cons_of_mem _ hmem))
  exact (skips_line hpat hstatus).append hlines

/-- The response from a header's line on. -/
def after (post : List Header) : Bytes := 10 :: ((post.flatMap fun h => h.text ++ crlf) ++ crlf ++ r.body)

theorem bytes_eq {pre post : List Header} {h : Header} (hheaders : r.headers = pre ++ h :: post) :
    r.bytes = r.before pre ++ (h.text ++ 13 :: after r post) := by
  rw [Response.bytes, Response.before, hheaders, List.flatMap_append, List.flatMap_cons, Response.before, after]
  simp only [crlf, List.append_assoc, List.cons_append, List.nil_append]

end

/-! ## The line of a challenge -/

/-- A spelling of the field's name and of the scheme. -/
structure Spelling (n s : Bytes) : Prop where
  name : sameWord n (ascii "Proxy-Authenticate") = true
  scheme : sameWord s (ascii "Negotiate") = true
  name_colon : (58 : Byte) ∉ n
  scheme_space : (32 : Byte) ∉ s
  scheme_start : ∀ c ∈ s.head?, c ≠ 32 ∧ c ≠ 9
  scheme_ne : s ≠ []
  name_line : (13 : Byte) ∉ n ∧ (10 : Byte) ∉ n
  scheme_line : (13 : Byte) ∉ s ∧ (10 : Byte) ∉ s

/-- The name and the scheme may be spelled in different ways. -/
theorem Spelling.mix {n n' s s' : Bytes} (h : Spelling n s) (h' : Spelling n' s') : Spelling n s' :=
  { h' with name := h.name, name_colon := h.name_colon, name_line := h.name_line }

theorem spelling_of_mem {m : Bytes} (hm : m ∈ challengeMarkers) :
    ∃ n s, m = n ++ 58 :: 32 :: (s ++ [32]) ∧ Spelling n s := by
  have hupper : Spelling (ascii "Proxy-Authenticate") (ascii "Negotiate") := by constructor <;> decide +kernel
  have hlower : Spelling (ascii "proxy-authenticate") (ascii "negotiate") := by constructor <;> decide +kernel
  simp only [challengeMarkers, List.mem_cons, List.not_mem_nil, or_false] at hm
  rcases hm with rfl | rfl | rfl | rfl
  · exact ⟨ascii "Proxy-Authenticate", ascii "Negotiate", by decide +kernel, hupper⟩
  · exact ⟨ascii "proxy-authenticate", ascii "negotiate", by decide +kernel, hlower⟩
  · exact ⟨ascii "Proxy-Authenticate", ascii "negotiate", by decide +kernel, hupper.mix hlower⟩
  · exact ⟨ascii "proxy-authenticate", ascii "Negotiate", by decide +kernel, hlower.mix hupper⟩

theorem line_of_mem {m : Bytes} (hm : m ∈ challengeMarkers) : (13 : Byte) ∉ m ∧ (10 : Byte) ∉ m := by
  obtain ⟨n, s, rfl, h⟩ := spelling_of_mem hm
  have h1 := h.name_line
  have h2 := h.scheme_line
  simp only [List.mem_append, List.mem_cons, List.not_mem_nil, or_false, not_or]
  exact ⟨⟨h1.1, by decide, by decide, h2.1, by decide⟩, h1.2, by decide, by decide, h2.2, by decide⟩

theorem length_of_mem {m : Bytes} (hm : m ∈ challengeMarkers) : m.length = 30 := by
  have h : ∀ m ∈ challengeMarkers, m.length = 30 := by decide
  exact h m hm

/-- A line that starts with a spelling is that of a challenge. -/
theorem isChallenge_of_prefix {h : Header} {m : Bytes} (hm : m ∈ challengeMarkers) (hstart : m <+: h.text) :
    h.isChallenge = true := by
  obtain ⟨n, s, rfl, hspell⟩ := spelling_of_mem hm
  obtain ⟨rest, hrest⟩ := hstart
  rw [Header.text, List.append_assoc, List.cons_append, List.cons_append, List.append_assoc] at hrest
  have hcolon : (58 : Byte) ∉ h.name := fun hmem => (h.name_visible 58 hmem).2 rfl
  obtain ⟨hname, htail⟩ := append_cons_inj hcolon hspell.name_colon hrest.symm
  -- The space after the colon is one space, as the scheme starts with a letter.
  have hvalue : h.value = s ++ ([32] ++ rest) := by
    obtain ⟨c, s', rfl⟩ := List.exists_cons_of_ne_nil hspell.scheme_ne
    have hc := hspell.scheme_start c rfl
    cases hspace : h.space with
    | nil =>
      rw [hspace, List.nil_append] at htail
      exact absurd rfl (h.value_start 32 (by rw [htail]; rfl)).1
    | cons x space =>
      rw [hspace, List.cons_append] at htail
      obtain ⟨-, htail⟩ := List.cons.inj htail
      cases space with
      | nil => exact htail
      | cons y space =>
        obtain ⟨rfl, -⟩ := List.cons.inj htail
        have hblank := h.space_blank y (by rw [hspace]; simp)
        exact hblank.elim (absurd · hc.1) (absurd · hc.2)
  have hscheme : h.scheme = s := by
    have hall : ∀ c ∈ s, decide (c ≠ 32) = true := by
      intro c hmem
      rw [decide_eq_true_eq]
      rintro rfl
      exact hspell.scheme_space hmem
    rw [Header.scheme, hvalue, List.takeWhile_append_of_pos hall]
    exact List.append_nil s
  rw [Header.isChallenge, hname, hscheme, hspell.name, hspell.scheme]
  rfl

theorem text_line (h : Header) : ∀ c ∈ h.text, c ≠ 13 ∧ c ≠ 10 := by
  intro c hc
  rw [Header.text, List.mem_append, List.mem_cons, List.mem_append] at hc
  rcases hc with hc | rfl | hc | hc
  · have hvisible := (h.name_visible c hc).1
    constructor <;> rintro rfl <;> exact absurd hvisible (by decide)
  · decide
  · rcases h.space_blank c hc with rfl | rfl <;> decide
  · exact h.value_line c hc

/-! ## What is read -/

/-- Only spaces are taken from the end of a line. -/
theorem trim_eq_iff {l t : Bytes} (hl : ∀ c ∈ l, c ≠ 13 ∧ c ≠ 10) (ht : t.rdropWhile (· = 32) = t) :
    l.rdropWhile (fun c => c = 32 ∨ c = 13) = t ↔ ∃ k, l = t ++ List.replicate k 32 := by
  constructor
  · rintro rfl
    have hspaces : ∀ c ∈ l.rtakeWhile (fun c => c = 32 ∨ c = 13), c = 32 := by
      intro c hc
      have hblank : c = 32 ∨ c = 13 := by simpa using List.mem_rtakeWhile_imp hc
      exact hblank.resolve_right (hl c ((List.rtakeWhile_suffix _ _).subset hc)).1
    refine ⟨(l.rtakeWhile fun c => c = 32 ∨ c = 13).length, ?_⟩
    rw [← List.eq_replicate_of_mem hspaces, List.rdropWhile_append_rtakeWhile]
  · rintro ⟨k, rfl⟩
    have hend : t.rdropWhile (fun c => c = 32 ∨ c = 13) = t := by
      rw [List.rdropWhile_eq_self_iff] at ht ⊢
      intro hne
      have h32 := ht hne
      have h13 := (hl (t.getLast hne) (List.mem_append_left _ (List.getLast_mem hne))).1
      simp only [decide_eq_true_eq] at h32 ⊢
      exact fun h => h.elim h32 h13
    clear hl ht
    induction k with
    | zero => rwa [List.replicate_zero, List.append_nil]
    | succ k ih =>
      rw [List.replicate_succ', ← List.append_assoc, List.rdropWhile_concat_pos _ _ _ (by decide)]
      exact ih

theorem trimmed_token (h : Header) : h.token.rdropWhile (· = 32) = h.token := List.rdropWhile_idempotent _ _

theorem trimmed_challenge (r : Response) : r.challenge.rdropWhile (· = 32) = r.challenge := by
  rw [Response.challenge]
  split
  · exact trimmed_token _
  · exact List.rdropWhile_nil _

/-- The place is the first one of a marker that occurs. -/
theorem challengeAt_eq (responseBody : Bytes) :
    challengeAt responseBody = challengeMarkers.findSome? fun marker => find marker responseBody := by
  rw [challengeAt, findMarker]
  induction challengeMarkers with
  | nil => rfl
  | cons m ms ih =>
    rw [List.findSome?_cons, List.findSome?_cons]
    cases find m responseBody with
    | some q => rfl
    | none => exact ih

/-- The function in terms of the place. -/
theorem parse407Challenge_eq (responseBody : Bytes) :
    parse407Challenge responseBody = match challengeAt responseBody with
      | none => []
      | some q => ((responseBody.drop (q + 30)).takeWhile fun c => c ≠ 13 ∧ c ≠ 10).rdropWhile fun c => c = 32 ∨ c = 13 := by
  rw [parse407Challenge, challengeAt]
  cases hfound : findMarker responseBody with
  | none => rfl
  | some found =>
    obtain ⟨marker, hm, hmarker⟩ := List.exists_of_findSome?_eq_some hfound
    obtain ⟨pos, -, rfl⟩ := Option.map_eq_some_iff.mp hmarker
    dsimp only [Option.map_some]
    rw [length_of_mem hm]

/-- What is read if a header's line is found. -/
theorem parse407Challenge_line (r : Response) {pre post : List Header} {h : Header} {m : Bytes}
    (hheaders : r.headers = pre ++ h :: post) (hm : m ∈ challengeMarkers) (hstart : m <+: h.text)
    (hq : challengeAt r.bytes = some (r.before pre).length) :
    parse407Challenge r.bytes = (h.text.drop 30).rdropWhile fun c => c = 32 ∨ c = 13 := by
  have hlen : 30 ≤ h.text.length := length_of_mem hm ▸ hstart.length_le
  have hline : ∀ c ∈ h.text.drop 30, decide (c ≠ 13 ∧ c ≠ 10) = true := by
    intro c hc
    exact decide_eq_true (text_line h c (List.mem_of_mem_drop hc))
  rw [parse407Challenge_eq, hq]
  dsimp only
  rw [bytes_eq r hheaders, ← List.drop_drop, List.drop_left, List.drop_append_of_le_length hlen,
    List.takeWhile_append_of_pos hline]
  congr 1
  exact List.append_nil _

/-! ## When it is the challenge -/

/-- The challenge of the response is read, and what is taken for
one is the line of a challenge. -/
structure ReadsChallenge (r : Response) : Prop where
  value : parse407Challenge r.bytes = r.challenge
  place : ∀ q, challengeAt r.bytes = some q →
    ∃ pre h post, r.headers = pre ++ h :: post ∧ h.isChallenge = true ∧ q = (r.before pre).length

/-- None of the spellings occurs, or the first in their order that occurs
starts the line of a header, and no line before it has it; the same token
follows as that of the first challenge, and only spaces. -/
inductive Spelled (r : Response) : Prop
  | nowhere : (∀ m ∈ challengeMarkers, ¬ m <:+: r.bytes) → r.challenge = [] → Spelled r
  | header (ms ms' : List Bytes) (m : Bytes) (pre post : List Header) (h : Header) (k : Nat) :
    challengeMarkers = ms ++ m :: ms' → (∀ m' ∈ ms, ¬ m' <:+: r.bytes) →
    r.headers = pre ++ h :: post → ¬ m <:+: r.statusLine → (∀ h' ∈ pre, ¬ m <:+: h'.text) →
    h.text = m ++ (r.challenge ++ List.replicate k 32) → Spelled r

theorem find_eq_none_iff {pat l : Bytes} : find pat l = none ↔ ¬ pat <:+: l := by
  rw [← find_isSome, Option.not_isSome_iff_eq_none]

/-- No line before the place has the marker. -/
theorem not_infix_of_found {r : Response} {pre post : List Header} {h : Header} {m : Bytes}
    (hheaders : r.headers = pre ++ h :: post) (hq : find m r.bytes = some (r.before pre).length) :
    ¬ m <:+: r.statusLine ∧ ∀ h' ∈ pre, ¬ m <:+: h'.text := by
  constructor
  · rintro ⟨a, b, hab⟩
    have hle : (r.before pre).length ≤ a.length := by
      refine find_le hq (b := b ++ crlf ++ (pre.flatMap fun h => h.text ++ crlf) ++ (h.text ++ 13 :: after r post)) ?_
      rw [bytes_eq r hheaders, Response.before, ← hab]
      simp only [List.append_assoc]
    have hlen : (r.before pre).length = a.length + m.length + b.length + 2 + (pre.flatMap fun h => h.text ++ crlf).length := by
      rw [Response.before, ← hab]
      simp only [List.length_append, crlf, List.length_cons, List.length_nil]
    omega
  · rintro h' hmem ⟨a, b, hab⟩
    obtain ⟨p1, p2, rfl⟩ := List.append_of_mem hmem
    rw [List.append_assoc, List.cons_append] at hheaders
    have hle : (r.before (p1 ++ h' :: p2)).length ≤ (r.before p1 ++ a).length := by
      refine find_le hq (b := b ++ 13 :: after r (p2 ++ h :: post)) ?_
      rw [bytes_eq r hheaders, ← hab]
      simp only [List.append_assoc]
    have hlen : (r.before (p1 ++ h' :: p2)).length =
        (r.before p1).length + (a.length + m.length + b.length + 2) + (p2.flatMap fun h => h.text ++ crlf).length := by
      rw [Response.before, List.flatMap_append, List.flatMap_cons, ← hab, Response.before]
      simp only [List.length_append, crlf, List.length_cons, List.length_nil]
      omega
    rw [List.length_append] at hle
    omega

theorem readsChallenge_iff (r : Response) : ReadsChallenge r ↔ Spelled r := by
  constructor
  · rintro ⟨hvalue, hplace⟩
    cases hq : challengeAt r.bytes with
    | none =>
      refine .nowhere ?_ ?_
      · intro m hm
        exact find_eq_none_iff.mp (List.findSome?_eq_none_iff.mp ((challengeAt_eq _).symm.trans hq) m hm)
      · rw [← hvalue, parse407Challenge_eq, hq]
    | some q =>
      obtain ⟨ms, m, ms', hmarkers, hfound, hearlier⟩ := List.findSome?_eq_some_iff.mp ((challengeAt_eq _).symm.trans hq)
      obtain ⟨pre, h, post, hheaders, -, rfl⟩ := hplace q hq
      have hm : m ∈ challengeMarkers := by simp [hmarkers]
      have hstart : m <+: h.text := by
        have hdrop := find_prefix hfound
        rw [bytes_eq r hheaders, List.drop_left] at hdrop
        exact (prefix_append_cons (line_of_mem hm).1).mp hdrop
      obtain ⟨hstatus, hpre⟩ := not_infix_of_found hheaders hfound
      rw [parse407Challenge_line r hheaders hm hstart hq,
        trim_eq_iff (fun c hc => text_line h c (List.mem_of_mem_drop hc)) (trimmed_challenge r)] at hvalue
      obtain ⟨k, hk⟩ := hvalue
      refine .header ms ms' m pre post h k hmarkers (fun m' hm' => find_eq_none_iff.mp (hearlier m' hm')) hheaders hstatus
        hpre ?_
      rw [← hk, ← length_of_mem hm]
      exact (List.prefix_iff_eq_append.mp hstart).symm
  · rintro (⟨hnowhere, hempty⟩ | ⟨ms, ms', m, pre, post, h, k, hmarkers, hearlier, hheaders, hstatus, hpre, htext⟩)
    · have hq : challengeAt r.bytes = none :=
        (challengeAt_eq _).trans (List.findSome?_eq_none_iff.mpr fun m hm => find_eq_none_iff.mpr (hnowhere m hm))
      refine ⟨?_, fun q h => ?_⟩
      · rw [parse407Challenge_eq, hq, hempty]
      · rw [hq] at h
        cases h
    · have hm : m ∈ challengeMarkers := by simp [hmarkers]
      have hstart : m <+: h.text := ⟨_, htext.symm⟩
      have hskip : Skips m (r.before pre) := skips_before r (line_of_mem hm) (find_eq_none_iff.mpr hstatus)
        fun h' hmem => find_eq_none_iff.mpr (hpre h' hmem)
      have hfound : find m r.bytes = some (r.before pre).length := by
        rw [bytes_eq r hheaders, hskip, find_eq_zero.mpr (hstart.trans (List.prefix_append ..))]
        exact congrArg some (Nat.zero_add _)
      have hq : challengeAt r.bytes = some (r.before pre).length :=
        (challengeAt_eq _).trans
          (List.findSome?_eq_some_iff.mpr ⟨ms, m, ms', hmarkers, hfound, fun m' hm' => find_eq_none_iff.mpr (hearlier m' hm')⟩)
      refine ⟨?_, fun q h' => ?_⟩
      · rw [parse407Challenge_line r hheaders hm hstart hq,
          trim_eq_iff (fun c hc => text_line h c (List.mem_of_mem_drop hc)) (trimmed_challenge r)]
        refine ⟨k, ?_⟩
        rw [htext, ← length_of_mem hm, List.drop_left]
      · rw [hq] at h'
        cases h'
        exact ⟨pre, h, post, hheaders, isChallenge_of_prefix hm hstart, rfl⟩

/-! ## The comment is not kept -/

/-- A response in which the name is written in another case. -/
def otherCase : Response where
  minor := 49
  reason := ascii "Proxy Authentication Required"
  headers := [{
    name := ascii "Proxy-authenticate"
    space := [32]
    value := ascii "Negotiate YIIB"
    name_visible := by decide +kernel
    space_blank := by decide
    value_line := by decide +kernel
    value_start := by decide +kernel }]
  body := []
  minor_digit := by decide
  reason_line := by decide +kernel

theorem otherCase_not_read :
    parse407Challenge otherCase.bytes = [] ∧ otherCase.challenge = ascii "YIIB" ∧ ¬ ReadsChallenge otherCase := by
  have hparse : parse407Challenge otherCase.bytes = [] := by decide +kernel
  have hchallenge : otherCase.challenge = ascii "YIIB" := by decide +kernel
  refine ⟨hparse, hchallenge, fun h => ?_⟩
  have hvalue := h.value
  rw [hparse, hchallenge] at hvalue
  exact absurd hvalue (by decide +kernel)

end TR.Impl
