import DContext.Overlay.Map
import DContext.System.Run

/-!
# Commands on one key each

A command on a map is keyed when it looks at the entry of its key and changes no other one. What
a run of keyed commands leaves under a key, and what the commands for that key answer, is decided
by these commands alone; so runs that differ in how the keys take turns come to the same.

## Main definitions

* `Keyed key step`: every command is keyed
* `answers step m cs`: the commands of a run with what they answer
* `SameTurns key cs cs'`: the commands for each key come in the same order

## Main results

* `Keyed.lookup_answers_run`: a run, as one key sees it
* `Keyed.run_sameTurns`: the keys may take turns in any way
* `SameTurns.of_perm`: parts with keys of their own may come in any order
-/

namespace Overlay

open StepSystem

variable {κ : Type} [DecidableEq κ] {V ι ω : Type}

/-- The command `c` looks at the entry of `key c` and changes no other one. -/
structure Keyed (key : ι → κ) (step : Map κ V → ι → Map κ V × ω) : Prop where
  other : ∀ m c k, k ≠ key c → (step m c).1.lookup k = m.lookup k
  own : ∀ m m' c, m.lookup (key c) = m'.lookup (key c) →
    (step m c).1.lookup (key c) = (step m' c).1.lookup (key c) ∧ (step m c).2 = (step m' c).2

/-- The commands of a run with what they answer. -/
def answers (step : Map κ V → ι → Map κ V × ω) (m : Map κ V) (cs : List ι) : List (ι × ω) :=
  cs.zip (run step m cs).2

/-- The commands for each key come in the same order. -/
def SameTurns (key : ι → κ) (cs cs' : List ι) : Prop :=
  ∀ k, cs.filter (fun c => key c = k) = cs'.filter fun c => key c = k

omit [DecidableEq κ] in
theorem answers_cons (step : Map κ V → ι → Map κ V × ω) (m : Map κ V) (c : ι) (cs : List ι) :
    answers step m (c :: cs) = (c, (step m c).2) :: answers step (step m c).1 cs := rfl

namespace Keyed

variable {key : ι → κ} {step : Map κ V → ι → Map κ V × ω}

/-- **A run, as one key sees it**: only the commands for the key count. The induction is on the
commands, from maps that agree on the key. -/
theorem lookup_answers_run (h : Keyed key step) (k : κ) (cs : List ι) :
    ∀ m m' : Map κ V, m.lookup k = m'.lookup k →
      (run step m cs).1.lookup k = (run step m' (cs.filter fun c => key c = k)).1.lookup k ∧
        (answers step m cs).filter (fun a => key a.1 = k) =
          answers step m' (cs.filter fun c => key c = k) := by
  induction cs with
  | nil => exact fun m m' hm => ⟨hm, rfl⟩
  | cons c cs ih =>
    intro m m' hm
    rw [answers_cons, run_cons]
    by_cases hc : key c = k
    · subst hc
      obtain ⟨hlookup, hanswer⟩ := h.own m m' c hm
      obtain ⟨hrun, hanswers⟩ := ih _ _ hlookup
      rw [List.filter_cons_of_pos (by simp), List.filter_cons_of_pos (by simp), answers_cons,
        run_cons, hanswer, hanswers]
      exact ⟨hrun, rfl⟩
    · have hlookup : (step m c).1.lookup k = m'.lookup k := (h.other m c k (Ne.symm hc)).trans hm
      rw [List.filter_cons_of_neg (by simpa using hc), List.filter_cons_of_neg (by simpa using hc)]
      exact ih _ _ hlookup

/-- **The keys may take turns in any way**: the map at the end is the same, and the commands for
each key answer the same. -/
theorem run_sameTurns (h : Keyed key step) (m : Map κ V) {cs cs' : List ι}
    (hturns : SameTurns key cs cs') :
    (run step m cs).1 = (run step m cs').1 ∧
      ∀ k, (answers step m cs).filter (fun a => key a.1 = k) =
        (answers step m cs').filter fun a => key a.1 = k := by
  constructor
  · apply Finmap.ext_lookup
    intro k
    rw [(h.lookup_answers_run k cs m m rfl).1, (h.lookup_answers_run k cs' m m rfl).1, hturns k]
  · intro k
    rw [(h.lookup_answers_run k cs m m rfl).2, (h.lookup_answers_run k cs' m m rfl).2, hturns k]

end Keyed

/-- Parts with keys of their own may come in any order. -/
theorem SameTurns.of_perm {key : ι → κ} {parts parts' : List (List ι)} (h : parts.Perm parts')
    (hkeys : parts.Pairwise fun part part' => ∀ c ∈ part, ∀ c' ∈ part', key c ≠ key c') :
    SameTurns key parts.flatten parts'.flatten := by
  intro k
  induction h with
  | nil => rfl
  | cons part _ ih =>
    rw [List.flatten_cons, List.flatten_cons, List.filter_append, List.filter_append,
      ih (List.pairwise_cons.mp hkeys).2]
  | swap part part' parts =>
    have hdisjoint := (List.pairwise_cons.mp hkeys).1 part List.mem_cons_self
    have hnil : part.filter (fun c => key c = k) = [] ∨ part'.filter (fun c => key c = k) = [] := by
      rw [or_iff_not_imp_left]
      intro hne
      obtain ⟨c, hc⟩ := List.exists_mem_of_ne_nil _ hne
      obtain ⟨hmem, hkey⟩ := List.mem_filter.mp hc
      apply List.filter_eq_nil_iff.mpr
      intro c' hc' hkey'
      exact hdisjoint c' hc' c hmem ((of_decide_eq_true hkey').trans (of_decide_eq_true hkey).symm)
    simp only [List.flatten_cons, List.filter_append]
    rcases hnil with hnil | hnil <;> rw [hnil] <;> simp
  | trans h h' ih ih' =>
    rw [ih hkeys, ih' (h.pairwise hkeys fun hne c hc c' hc' => (hne c' hc' c hc).symm)]

end Overlay
