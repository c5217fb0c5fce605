import Mathlib.Data.List.Basic
import Mathlib.Order.Defs.LinearOrder
import Mathlib.Tactic

/-!
# Running minima

A scan that keeps the least key it has seen and collects an image of every element that attains it
at that time. The collected elements are those that no earlier one undercuts (`runningMinima`).

* `foldl_runningStep` — the scan is `runningMinima`
* `runningMinima_eq` — a scan that starts at the minimum collects the minimal elements
* `length_lt_runningMinima` — a scan that finds something smaller later collects too much
-/

namespace Rankd.Infra

variable {α β γ : Type} [LinearOrder β] (key : α → β) (image : α → γ)

/-- One step of the scan: the new minimum, and the image of the element if it attains it. -/
def runningStep (acc : β × List γ) (a : α) : β × List γ :=
  let least := if key a < acc.1 then key a else acc.1
  (least, if key a = least then acc.2 ++ [image a] else acc.2)

/-- The elements of a list whose key is at most `bound` and every earlier key. -/
def runningMinima (bound : β) : List α → List α
  | [] => []
  | a :: rest =>
    if key a ≤ bound then a :: runningMinima (key a) rest else runningMinima bound rest

variable {key image}

theorem runningStep_of_le {bound : β} {collected : List γ} {a : α} (h : key a ≤ bound) :
    runningStep key image (bound, collected) a = (key a, collected ++ [image a]) := by
  unfold runningStep
  rcases lt_or_eq_of_le h with hlt | heq
  · simp [hlt]
  · simp [heq]

theorem runningStep_of_lt {bound : β} {collected : List γ} {a : α} (h : bound < key a) :
    runningStep key image (bound, collected) a = (bound, collected) := by
  simp [runningStep, not_lt.mpr h.le, h.ne']

/-- The scan collects the running minima. -/
theorem foldl_runningStep (bound : β) (collected : List γ) (l : List α) :
    (l.foldl (runningStep key image) (bound, collected)).2 =
      collected ++ (runningMinima key bound l).map image := by
  induction l generalizing bound collected with
  | nil => simp [runningMinima]
  | cons a rest ih =>
    rw [List.foldl_cons, runningMinima]
    by_cases h : key a ≤ bound
    · rw [runningStep_of_le h, if_pos h, ih]
      simp
    · rw [runningStep_of_lt (not_le.mp h), if_neg h, ih]

theorem runningMinima_cons {bound : β} {a : α} (l : List α) (h : key a ≤ bound) :
    runningMinima key bound (a :: l) = a :: runningMinima key (key a) l := by
  rw [runningMinima, if_pos h]

/-- From a lower bound on, the scan collects the elements that attain it. -/
theorem runningMinima_eq {least : β} {l : List α} (h : ∀ a ∈ l, least ≤ key a) :
    runningMinima key least l = l.filter (key · = least) := by
  induction l with
  | nil => rfl
  | cons a rest ih =>
    have hrest := ih fun b hb => h b (List.mem_cons_of_mem a hb)
    rw [runningMinima]
    by_cases hle : key a ≤ least
    · have heq : key a = least := le_antisymm hle (h a List.mem_cons_self)
      rw [if_pos hle, heq, hrest, List.filter_cons_of_pos (by simpa using heq)]
    · rw [if_neg hle, hrest, List.filter_cons_of_neg (by simpa using fun heq => hle heq.le)]

/-- The elements that attain a lower bound are among the running minima. -/
theorem sublist_runningMinima {least bound : β} {l : List α} (h : ∀ a ∈ l, least ≤ key a)
    (hbound : least ≤ bound) : (l.filter (key · = least)).Sublist (runningMinima key bound l) := by
  induction l generalizing bound with
  | nil => exact List.Sublist.slnil
  | cons a rest ih =>
    have hrest : ∀ b ∈ rest, least ≤ key b := fun b hb => h b (List.mem_cons_of_mem a hb)
    rw [runningMinima]
    by_cases heq : key a = least
    · rw [List.filter_cons_of_pos (by simpa using heq), if_pos (heq ▸ hbound)]
      exact (ih hrest (h a List.mem_cons_self)).cons_cons a
    · rw [List.filter_cons_of_neg (by simpa using heq)]
      split_ifs
      · exact (ih hrest (h a List.mem_cons_self)).cons a
      · exact ih hrest hbound

/-- A first element that is undercut later is collected beside the minimal ones. -/
theorem length_lt_runningMinima {least bound : β} {a : α} {l : List α}
    (h : ∀ b ∈ l, least ≤ key b) (hlt : least < key a) (hbound : key a ≤ bound) :
    ((a :: l).filter (key · = least)).length < (runningMinima key bound (a :: l)).length := by
  rw [List.filter_cons_of_neg (by simpa using hlt.ne'), runningMinima_cons l hbound,
    List.length_cons]
  exact Nat.lt_succ_of_le (sublist_runningMinima h hlt.le).length_le

end Rankd.Infra
