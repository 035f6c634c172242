import Mathlib.Data.List.Nodup
import TcpRedirector.Proof.Framework.Entries

/-!
# Texts for every value

What is proved about the library's texts needs one for every value. Those in
`known` are written by `print`, as the library writes them. For the others a
code behind a zero byte, which starts no JSON text, stands in
(`Json.Printed`).
-/

namespace TR.Json

/-! ## A code -/

def codeBytes : Bytes → Bytes → Bytes
  | [], rest => 0 :: rest
  | b :: s, rest => 1 :: b :: codeBytes s rest

/-- A number by its bits. -/
def codeBits (n : BitVec 64) (rest : Bytes) : Bytes :=
  codeBytes ((List.range 64).map fun i => if n.getLsbD i then 1 else 0) rest

mutual

/-- The code of a value before the rest. -/
def code : Json → Bytes → Bytes
  | null, rest => 0 :: rest
  | boolean b, rest => 1 :: (if b then 1 else 0) :: rest
  | unsigned n, rest => 2 :: codeBits n rest
  | integer n, rest => 3 :: codeBits n rest
  | float bits, rest => 4 :: codeBits bits rest
  | string s, rest => 5 :: codeBytes s rest
  | array l, rest => 6 :: codeElements l rest
  | object l, rest => 7 :: codeEntries l rest

def codeElements : List Json → Bytes → Bytes
  | [], rest => 0 :: rest
  | j :: l, rest => 1 :: code j (codeElements l rest)

def codeEntries : List (Bytes × Json) → Bytes → Bytes
  | [], rest => 0 :: rest
  | (k, j) :: l, rest => 1 :: codeBytes k (code j (codeEntries l rest))

end

theorem codeBytes_inj {s s' rest rest' : Bytes} (h : codeBytes s rest = codeBytes s' rest') : s = s' ∧ rest = rest' := by
  induction s generalizing s' with
  | nil =>
    cases s' with
    | nil => exact ⟨rfl, List.tail_eq_of_cons_eq h⟩
    | cons b' s' => cases (List.cons.inj h).1
  | cons b s ih =>
    cases s' with
    | nil => cases (List.cons.inj h).1
    | cons b' s' =>
      obtain ⟨rfl, htail⟩ := List.cons.inj (List.cons.inj h).2
      obtain ⟨rfl, hrest⟩ := ih htail
      exact ⟨rfl, hrest⟩

theorem codeBits_inj {n n' : BitVec 64} {rest rest' : Bytes} (h : codeBits n rest = codeBits n' rest') :
    n = n' ∧ rest = rest' := by
  obtain ⟨hbits, hrest⟩ := codeBytes_inj h
  refine ⟨BitVec.eq_of_getLsbD_eq fun i hi => ?_, hrest⟩
  have hbit := List.map_inj_left.mp hbits i (List.mem_range.mpr hi)
  cases hn : n.getLsbD i <;> cases hn' : n'.getLsbD i <;> simp [hn, hn'] at hbit ⊢

/-- The code says where it ends. -/
theorem code_inj (j : Json) : ∀ j' rest rest', code j rest = code j' rest' → j = j' ∧ rest = rest' := by
  refine @Json.rec
    (fun j => ∀ j' rest rest', code j rest = code j' rest' → j = j' ∧ rest = rest')
    (fun l => ∀ l' rest rest', codeElements l rest = codeElements l' rest' → l = l' ∧ rest = rest')
    (fun l => ∀ l' rest rest', codeEntries l rest = codeEntries l' rest' → l = l' ∧ rest = rest')
    (fun e => ∀ j' rest rest', code e.2 rest = code j' rest' → e.2 = j' ∧ rest = rest')
    ?null ?boolean ?unsigned ?integer ?float ?string ?array ?object ?nil ?cons ?noEntry ?entry ?pair j
  case null =>
    intro j' rest rest' h
    cases j' with
    | null => exact ⟨rfl, (List.cons.inj h).2⟩
    | _ => cases (List.cons.inj h).1
  case boolean =>
    intro b j' rest rest' h
    cases j' with
    | boolean b' =>
      obtain ⟨hb, hrest⟩ := List.cons.inj (List.cons.inj h).2
      refine ⟨?_, hrest⟩
      cases b <;> cases b' <;> first | rfl | cases hb
    | _ => cases (List.cons.inj h).1
  case unsigned =>
    intro n j' rest rest' h
    cases j' with
    | unsigned n' => exact (codeBits_inj (List.cons.inj h).2).imp_left (congrArg _)
    | _ => cases (List.cons.inj h).1
  case integer =>
    intro n j' rest rest' h
    cases j' with
    | integer n' => exact (codeBits_inj (List.cons.inj h).2).imp_left (congrArg _)
    | _ => cases (List.cons.inj h).1
  case float =>
    intro n j' rest rest' h
    cases j' with
    | float n' => exact (codeBits_inj (List.cons.inj h).2).imp_left (congrArg _)
    | _ => cases (List.cons.inj h).1
  case string =>
    intro s j' rest rest' h
    cases j' with
    | string s' => exact (codeBytes_inj (List.cons.inj h).2).imp_left (congrArg _)
    | _ => cases (List.cons.inj h).1
  case array =>
    intro l ih j' rest rest' h
    cases j' with
    | array l' => exact (ih l' _ _ (List.cons.inj h).2).imp_left (congrArg _)
    | _ => cases (List.cons.inj h).1
  case object =>
    intro l ih j' rest rest' h
    cases j' with
    | object l' => exact (ih l' _ _ (List.cons.inj h).2).imp_left (congrArg _)
    | _ => cases (List.cons.inj h).1
  case nil =>
    intro l' rest rest' h
    cases l' with
    | nil => exact ⟨rfl, (List.cons.inj h).2⟩
    | cons j' l' => cases (List.cons.inj h).1
  case cons =>
    intro j l ihj ihl l' rest rest' h
    cases l' with
    | nil => cases (List.cons.inj h).1
    | cons j' l' =>
      obtain ⟨rfl, htail⟩ := ihj j' _ _ (List.cons.inj h).2
      obtain ⟨rfl, hrest⟩ := ihl l' _ _ htail
      exact ⟨rfl, hrest⟩
  case noEntry =>
    intro l' rest rest' h
    cases l' with
    | nil => exact ⟨rfl, (List.cons.inj h).2⟩
    | cons e' l' => cases (List.cons.inj h).1
  case entry =>
    intro e l ihe ihl l' rest rest' h
    cases l' with
    | nil => cases (List.cons.inj h).1
    | cons e' l' =>
      obtain ⟨k, j⟩ := e
      obtain ⟨k', j'⟩ := e'
      obtain ⟨rfl, hvalue⟩ := codeBytes_inj (List.cons.inj h).2
      obtain ⟨hj, htail⟩ := ihe j' _ _ hvalue
      obtain ⟨rfl, hrest⟩ := ihl l' _ _ htail
      exact ⟨by rw [show j = j' from hj], hrest⟩
  case pair => exact fun _ _ ih => ih

theorem length_codeBytes (s rest : Bytes) : (codeBytes s rest).length = 2 * s.length + 1 + rest.length := by
  induction s with
  | nil => simp [codeBytes]; omega
  | cons b s ih => simp only [codeBytes, List.length_cons, ih]; omega

/-! ## Texts -/

/-- The values in `known` have different texts, and JSON ones. -/
structure Printed (known : List Json) (print : Json → Bytes) : Prop where
  inj : ∀ j ∈ known, ∀ j' ∈ known, print j = print j' → j = j'
  head : ∀ j ∈ known, (print j).head? ≠ some 0

theorem Printed.of_nodup {known : List Json} {print : Json → Bytes} (hnodup : (known.map print).Nodup)
    (hhead : (known.map print).all (fun b => b.head? != some 0) = true) : Printed known print where
  inj _ hj _ hj' h := List.inj_on_of_nodup_map hnodup hj hj' h
  head j hj := by simpa using List.all_eq_true.mp hhead _ (List.mem_map_of_mem hj)

/-- The text of a value. -/
noncomputable def text (known : List Json) (print : Json → Bytes) (j : Json) : Bytes :=
  @ite _ (j ∈ known) (Classical.dec _) (print j) (0 :: code j [])

open Classical in
/-- Reads it. -/
noncomputable def ofText (known : List Json) (print : Json → Bytes) (b : Bytes) : Option Json :=
  if h : ∃ j : Json, text known print j = b then some h.choose.reread else none

section

variable {known : List Json} {print : Json → Bytes} {j : Json}

theorem text_of_mem (h : j ∈ known) : text known print j = print j := if_pos h

theorem text_of_not_mem (h : j ∉ known) : text known print j = 0 :: code j [] := if_neg h

theorem text_injective (hp : Printed known print) {j j' : Json} (h : text known print j = text known print j') : j = j' := by
  rw [text, text] at h
  split at h
  next hj =>
    split at h
    next hj' => exact hp.inj j hj j' hj' h
    next => exact absurd (by rw [h]; rfl) (hp.head j hj)
  next =>
    split at h
    next hj' => exact absurd (by rw [← h]; rfl) (hp.head j' hj')
    next => exact (code_inj j j' [] [] (List.cons.inj h).2).1

theorem ofText_text (hp : Printed known print) (j : Json) : ofText known print (text known print j) = some j.reread := by
  have h : ∃ j' : Json, text known print j' = text known print j := ⟨j, rfl⟩
  rw [ofText, dif_pos h, text_injective hp h.choose_spec]

end

/-! ## Escapes -/

/-- The escapes of `System.Text.Json`, for quotes and backslashes. -/
def escape (s : Bytes) : Bytes := s.flatMap fun b => if b = 34 then ascii "\\u0022" else if b = 92 then ascii "\\\\" else [b]

mutual

/-- The value with its strings escaped. -/
def escaped : Json → Json
  | string s => string (escape s)
  | array l => array (escapedElements l)
  | object l => object (escapedEntries l)
  | j => j

def escapedElements : List Json → List Json
  | [] => []
  | j :: l => escaped j :: escapedElements l

def escapedEntries : List (Bytes × Json) → List (Bytes × Json)
  | [] => []
  | (k, j) :: l => (k, escaped j) :: escapedEntries l

end

end TR.Json
