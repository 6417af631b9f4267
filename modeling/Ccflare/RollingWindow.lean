import Mathlib.Algebra.BigOperators.Group.List.Basic
import Mathlib.Algebra.Order.BigOperators.Group.List
import Mathlib.Data.List.DropRight
import Mathlib.Tactic.Abel

/-!
A rolling window over timed weights. Entries are pushed at the back and popped at
the front while they are older than a cutoff, and a running total is kept beside
them. Times need not be in order; where they are, popping is filtering.
-/

namespace Ccflare.RollingWindow

variable {Time Weight : Type}

-- In order, the first element that is not dropped has none behind it that would be.
theorem drop_while_ordered {Element : Type} (drops : Element → Bool) (elements : List Element)
    (ordered : elements.Pairwise fun a b => drops b = true → drops a = true) :
    elements.dropWhile drops = elements.filter fun element => !drops element := by
  induction elements with
  | nil => rfl
  | cons element rest ih =>
      obtain ⟨first, later⟩ := List.pairwise_cons.mp ordered
      cases dropped : drops element with
      | true => simp [dropped, ih later]
      | false =>
          have kept : ∀ other ∈ rest, (!drops other) = true := by
            intro other member
            cases gone : drops other with
            | false => rfl
            | true => exact absurd (first other member gone) (by simp [dropped])
          rw [List.dropWhile_cons_of_neg (by simp [dropped]),
            List.filter_cons_of_pos (by simp [dropped]), List.filter_eq_self.mpr kept]

section Entries
variable [LinearOrder Time] (cutoff : Time) (entries : List (Time × Weight))

def expire : List (Time × Weight) := entries.dropWhile fun entry => decide (entry.1 < cutoff)

def expired : List (Time × Weight) := entries.takeWhile fun entry => decide (entry.1 < cutoff)

theorem expired_expire : expired cutoff entries ++ expire cutoff entries = entries :=
  List.takeWhile_append_dropWhile

theorem expire_suffix : expire cutoff entries <:+ entries :=
  List.dropWhile_suffix _

theorem expired_old (entry : Time × Weight) (member : entry ∈ expired cutoff entries) :
    entry.1 < cutoff := by
  have old := List.mem_takeWhile_imp member
  exact of_decide_eq_true old

theorem expire_ordered (ordered : entries.Pairwise fun a b => a.1 ≤ b.1) :
    expire cutoff entries = entries.filter fun entry => decide (cutoff ≤ entry.1) := by
  have older : entries.Pairwise fun a b =>
      decide (b.1 < cutoff) = true → decide (a.1 < cutoff) = true :=
    ordered.imp fun before old => by simpa using before.trans_lt (of_decide_eq_true old)
  rw [expire, drop_while_ordered _ _ older]
  apply List.filter_congr
  intro entry _
  simp [← not_lt]

theorem expire_twice (earlier : Time) (before : earlier ≤ cutoff) :
    expire cutoff (expire earlier entries) = expire cutoff entries := by
  induction entries with
  | nil => rfl
  | cons entry rest ih =>
      by_cases old : entry.1 < earlier
      · have older : entry.1 < cutoff := old.trans_le before
        have first : expire earlier (entry :: rest) = expire earlier rest :=
          List.dropWhile_cons_of_pos (by simpa using old)
        have second : expire cutoff (entry :: rest) = expire cutoff rest :=
          List.dropWhile_cons_of_pos (by simpa using older)
        rw [first, second, ih]
      · have kept : expire earlier (entry :: rest) = entry :: rest :=
          List.dropWhile_cons_of_neg (by simpa using old)
        rw [kept]

end Entries

section Totals
variable [AddCommGroup Weight]

def total (entries : List (Time × Weight)) : Weight := (entries.map Prod.snd).sum

@[simp] theorem total_nil : total ([] : List (Time × Weight)) = 0 := rfl

@[simp] theorem total_cons (entry : Time × Weight) (rest : List (Time × Weight)) :
    total (entry :: rest) = entry.2 + total rest := by
  simp [total]

@[simp] theorem total_append (left right : List (Time × Weight)) :
    total (left ++ right) = total left + total right := by
  simp [total]

theorem total_split (keep : Time × Weight → Bool) (entries : List (Time × Weight)) :
    total (entries.filter keep) + total (entries.filter fun entry => !keep entry) =
      total entries := by
  induction entries with
  | nil => simp
  | cons entry rest ih =>
      by_cases kept : keep entry = true
      · simp [kept, ← ih, add_assoc]
      · simp [kept, ← ih, add_left_comm]

theorem total_nonneg [LinearOrder Weight] [IsOrderedAddMonoid Weight]
    (entries : List (Time × Weight)) (positive : ∀ entry ∈ entries, 0 < entry.2) :
    0 ≤ total entries := by
  apply List.sum_nonneg
  intro weight member
  obtain ⟨entry, listed, rfl⟩ := List.mem_map.mp member
  exact (positive entry listed).le

theorem total_eq_zero_iff [LinearOrder Weight] [IsOrderedAddMonoid Weight]
    (entries : List (Time × Weight)) (positive : ∀ entry ∈ entries, 0 < entry.2) :
    total entries = 0 ↔ entries = [] := by
  cases entries with
  | nil => simp
  | cons entry rest =>
      have first := positive entry List.mem_cons_self
      have later := total_nonneg rest fun other member =>
        positive other (List.mem_cons_of_mem entry member)
      have weighs : 0 < total (entry :: rest) := by
        rw [total_cons]
        exact add_pos_of_pos_of_nonneg first later
      simp only [reduceCtorEq, iff_false]
      exact weighs.ne'

/-- What a suffix weighs against what a selection of the whole weighs: the entries it
has outside the selection against those of the selection it has lost. -/
theorem suffix_total_iff (keep : Time × Weight → Bool) (lost kept : List (Time × Weight)) :
    total kept = total ((lost ++ kept).filter keep) ↔
      total (kept.filter fun entry => !keep entry) = total (lost.filter keep) := by
  rw [List.filter_append, total_append, ← total_split keep kept, add_comm (total (lost.filter keep)),
    add_right_inj]

variable [LinearOrder Time]

/-- The loop that pops old entries and takes their weights off a running total. -/
def popOld (cutoff : Time) : List (Time × Weight) → Weight → List (Time × Weight) × Weight
  | [], running => ([], running)
  | entry :: rest, running =>
      if entry.1 < cutoff then popOld cutoff rest (running - entry.2)
      else (entry :: rest, running)

theorem pop_old_eq (cutoff : Time) (entries : List (Time × Weight)) (running : Weight) :
    popOld cutoff entries running =
      (expire cutoff entries, running - total (expired cutoff entries)) := by
  induction entries generalizing running with
  | nil => simp [popOld, expire, expired]
  | cons entry rest ih =>
      by_cases old : entry.1 < cutoff
      · simp only [popOld, if_pos old, ih, expire, expired, List.dropWhile_cons, List.takeWhile_cons,
          decide_eq_true old, if_true, total_cons, sub_sub]
      · simp [popOld, expire, expired, old]

/-- A running total that is right stays right. -/
theorem pop_old_total (cutoff : Time) (entries : List (Time × Weight)) :
    popOld cutoff entries (total entries) =
      (expire cutoff entries, total (expire cutoff entries)) := by
  rw [pop_old_eq]
  have split := congrArg total (expired_expire cutoff entries)
  rw [total_append] at split
  rw [← split, add_sub_cancel_left]

end Totals

end Ccflare.RollingWindow
