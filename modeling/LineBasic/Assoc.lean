namespace LineBasic

abbrev Assoc (α β : Type) := List (α × β)

namespace Assoc

variable {α β : Type} [BEq α]

def get? : Assoc α β → α → Option β
  | [], _ => none
  | (a, b) :: m, k => if a == k then some b else get? m k

def has (m : Assoc α β) (k : α) : Bool := (m.get? k).isSome

def put : Assoc α β → α → β → Assoc α β
  | [], k, v => [(k, v)]
  | (a, b) :: m, k, v => if a == k then (a, v) :: m else (a, b) :: put m k v

def erase (m : Assoc α β) (k : α) : Assoc α β := m.filter fun p => !(p.1 == k)

@[simp] theorem get?_nil (k : α) : get? ([] : Assoc α β) k = none := rfl

@[simp] theorem get?_put_self [LawfulBEq α] (m : Assoc α β) (k : α) (v : β) :
    (m.put k v).get? k = some v := by
  induction m with
  | nil => simp [put, get?]
  | cons p m ih =>
      by_cases h : (p.1 == k) = true <;> simp [put, get?, h, ih]

theorem get?_put_of_ne [LawfulBEq α] (m : Assoc α β) {k j : α} (v : β) (h : j ≠ k) :
    (m.put k v).get? j = m.get? j := by
  induction m with
  | nil => simp [put, get?, h.symm]
  | cons p m ih =>
      by_cases hp : (p.1 == k) = true
      · have : p.1 = k := by simpa using hp
        simp [put, get?, this, h.symm]
      · simp [put, get?, hp, ih]

theorem get?_erase_self (m : Assoc α β) (k : α) : (m.erase k).get? k = none := by
  induction m with
  | nil => rfl
  | cons p m ih =>
      by_cases h : (p.1 == k) = true
      · rwa [erase, List.filter_cons_of_neg (by simp [h])]
      · rw [erase, List.filter_cons_of_pos (by simpa using h), get?, if_neg h]
        exact ih

theorem erase_of_get?_eq_none {m : Assoc α β} {k : α} (h : m.get? k = none) : m.erase k = m := by
  induction m with
  | nil => rfl
  | cons p m ih =>
      rw [get?] at h
      split at h
      · cases h
      · rename_i hp
        rw [erase, List.filter_cons_of_pos (by simpa using hp)]
        exact congrArg (p :: ·) (ih h)

theorem get?_erase_of_ne [LawfulBEq α] (m : Assoc α β) {k j : α} (h : j ≠ k) :
    (m.erase k).get? j = m.get? j := by
  induction m with
  | nil => rfl
  | cons p m ih =>
      by_cases hp : (p.1 == k) = true
      · have hj : ¬ (p.1 == j) = true := by
          rw [eq_of_beq hp, beq_iff_eq]
          exact h.symm
        rwa [erase, List.filter_cons_of_neg (by simp [hp]), get?, if_neg hj]
      · rw [erase, List.filter_cons_of_pos (by simpa using hp), get?, get?]
        exact congrArg (if (p.1 == j) = true then some p.2 else ·) ih

end Assoc

abbrev Lines (β : Type) := List (Int × β)

namespace Lines

variable {β : Type}

def get? : Lines β → Int → Option β
  | [], _ => none
  | (m, b) :: ls, n => if m = n then some b else get? ls n

def put : Lines β → Int → β → Lines β
  | [], n, b => [(n, b)]
  | (m, c) :: ls, n, b =>
      if n < m then (n, b) :: (m, c) :: ls
      else if n = m then (n, b) :: ls
      else (m, c) :: put ls n b

def remove : Lines β → Int → Lines β
  | [], _ => []
  | (m, c) :: ls, n => if m = n then ls else (m, c) :: remove ls n

def numbers (ls : Lines β) : List Int := ls.map (·.1)

end Lines

/-- Things stored under line numbers, in the order in which the numbers came. -/
abbrev Ledger (β : Type) := Assoc Int β

def Ledger.sorted {β : Type} (d : Ledger β) : Lines β := d.foldr (fun l ls => ls.put l.1 l.2) []

end LineBasic
