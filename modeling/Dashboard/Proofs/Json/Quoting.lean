import Dashboard.Json.Printer
import Dashboard.Json.Reader
import Dashboard.Proofs.Text

/-!
Strings of JSON text. What is written between quotes is read back as it was, and holds no line
feed, so a quoted text never breaks a line.
-/
namespace Dashboard.Json

theorem hexValue?_hexDigit : ∀ n, n < 16 → hexValue? (hexDigit n) = some n := by
  decide

theorem hexCode?_control {n : Nat} (h : n < 32) :
    hexCode? '0' '0' (hexDigit (n / 16)) (hexDigit (n % 16)) = some n := by
  have zero : hexValue? '0' = some 0 := by decide
  have high := hexValue?_hexDigit (n / 16) (by omega)
  have low := hexValue?_hexDigit (n % 16) (by omega)
  rw [hexCode?, zero, high, low]
  simp only [Option.bind_eq_bind, Option.bind_some, Option.some.injEq]
  omega

theorem unquote_plain {c : Char} (notQuote : c ≠ '\x22') (notSlash : c ≠ '\\')
    (visible : 32 ≤ c.toNat) (rest : List Char) :
    unquote (c :: rest) = prepend c 1 (unquote rest) := by
  have allowed : ¬(c.toNat < 32 ∨ c = '\\') := by
    rintro (small | slash)
    · omega
    · exact notSlash slash
  rw [unquote.eq_def]
  split
  · simp_all
  · simp_all
  · simp_all
  · simp_all
  · next heq =>
    obtain ⟨rfl, rfl⟩ := List.cons.inj heq
    rw [if_neg allowed]

theorem unquote_escaped (c : Char) (rest : List Char) :
    unquote (escaped c ++ rest) = prepend c (escaped c).length (unquote rest) := by
  unfold escaped
  split_ifs with quote slash back feed line ret tab control
  · subst quote; simp [unquote, simpleEscape?]
  · subst slash; simp [unquote, simpleEscape?]
  · subst back; simp [unquote, simpleEscape?]
  · subst feed; simp [unquote, simpleEscape?]
  · subst line; simp [unquote, simpleEscape?]
  · subst ret; simp [unquote, simpleEscape?]
  · subst tab; simp [unquote, simpleEscape?]
  · have code := hexCode?_control control
    have notLow : isLowHalf c.toNat = false := by
      simp [isLowHalf]
      omega
    have notHigh : isHighHalf c.toNat = false := by
      simp [isHighHalf]
      omega
    simp only [List.cons_append, List.nil_append]
    rw [unquote]
    simp [code, notLow, notHigh, Char.ofNat_toNat]
  · exact unquote_plain quote slash (by omega) rest

@[simp] theorem prepend_some (c : Char) (n : Nat) (value : List Char) (k : Nat) :
    prepend c n (some (some value, k)) = some (some (c :: value), k + n) := rfl

theorem unquote_flatMap_escaped (value rest : List Char) :
    unquote (value.flatMap escaped ++ '\x22' :: rest) =
      some (some value, (value.flatMap escaped).length + 1) := by
  induction value with
  | nil => simp [unquote]
  | cons c more ih =>
    rw [List.flatMap_cons, List.append_assoc, unquote_escaped, ih, prepend_some,
      List.length_append]
    congr 2
    omega

theorem hexDigit_ne_lineFeed : ∀ n, n < 16 → hexDigit n ≠ '\n' := by
  decide

theorem lineFeed_not_mem_escaped (c : Char) : '\n' ∉ escaped c := by
  unfold escaped
  split_ifs with quote slash back feed line ret tab control
  all_goals try decide
  · have high := hexDigit_ne_lineFeed (c.toNat / 16) (by omega)
    have low := hexDigit_ne_lineFeed (c.toNat % 16) (by omega)
    simp [Ne.symm high, Ne.symm low]
  · simpa using Ne.symm line

theorem lineFeed_not_mem_quote (text : String) : '\n' ∉ quote text := by
  simp only [quote, List.mem_append, List.mem_cons, List.mem_flatMap, not_or, not_exists, not_and]
  exact ⟨⟨by decide, fun c _ => lineFeed_not_mem_escaped c⟩, by decide, by simp⟩

theorem isTight_quote (text : String) : Text.IsTight (quote text) := by
  have visible : Text.isBlank '\x22' = false := by decide
  refine ⟨⟨'\x22', rfl, visible⟩, '\x22', ?_, visible⟩
  exact List.getLast?_concat

end Dashboard.Json
