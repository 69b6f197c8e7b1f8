import Custody.Text.Utf8

/-!
# Percent encoding

In the target of a request a byte may be written as a percent sign and two hexadecimal digits. Runs
of such bytes are read as UTF-8; bytes that are none stand for the replacement character. A percent
sign without two digits stands for itself.

> `unquote_of_plain`: a text without a percent sign stands for itself.
-/

namespace Custody.Text

/-- The text behind a percent-encoded one, after some bytes of a character. -/
def unquoteFrom (p : Utf8.Pending) : List Char → List Char
  | '%' :: a :: b :: rest =>
    match hexDigit? a, hexDigit? b with
    | some x, some y =>
      let (q, ps) := p.feed false (16 * x + y)
      ps.map Utf8.shown ++ unquoteFrom q rest
    | _, _ => p.flush.map Utf8.shown ++ '%' :: unquoteFrom .idle (a :: b :: rest)
  | c :: rest => p.flush.map Utf8.shown ++ c :: unquoteFrom .idle rest
  | [] => p.flush.map Utf8.shown
termination_by cs => cs.length

/-- The text behind a percent-encoded one. -/
def unquote (cs : List Char) : List Char := unquoteFrom .idle cs

theorem unquote_of_plain {cs : List Char} (h : ∀ c ∈ cs, c ≠ '%') : unquote cs = cs := by
  unfold unquote
  induction cs with
  | nil => simp [unquoteFrom, Utf8.Pending.flush]
  | cons c rest ih =>
    have hc : c ≠ '%' := h c (by simp)
    have hr := ih fun d hd => h d (by simp [hd])
    unfold unquoteFrom
    split
    · rename_i heq
      exact absurd (List.cons.inj heq).1 hc
    · rename_i heq
      obtain ⟨rfl, rfl⟩ := List.cons.inj heq
      simp [Utf8.Pending.flush, hr]
    · rename_i heq; cases heq

end Custody.Text
