import Mathlib.Data.Prod.Lex
import Mathlib.Data.String.Basic
import TokenEra.Billing.TextQuota

/-!
# The order of tool calls

The items of a surcharge come from a Go map, in any order, and `sort.Slice` leaves items of one name
and price in any order. They are merged over the array that holds them. Whatever the orders, the
merged list is the same one, with the calls of each name and price added up (`merge_spec`), and no
item is written over before it is read.

`sort.Slice` is a permutation after which no item is less than one before it. Decimals are exact
where a price has no more than 13 places: a thousandth of it then has no more than `Decimal.Div`
keeps.
-/

namespace TokenEra.TextQuota

def ToolSurchargeItem.key (item : ToolSurchargeItem) : String ×ₗ ℚ := toLex (item.name, item.price)

def less (a b : ToolSurchargeItem) : Prop := if a.name = b.name then a.price < b.price else a.name < b.name

variable {a b : ToolSurchargeItem}

theorem less_iff : less a b ↔ a.key < b.key := by
  rw [less, ToolSurchargeItem.key, ToolSurchargeItem.key, Prod.Lex.toLex_lt_toLex]
  split_ifs with hname
  · simp [hname]
  · simp [hname]

def ToolSurchargeItem.Exact (item : ToolSurchargeItem) : Prop := ∃ k : Int, item.price * 10 ^ 13 = k

theorem decimalDiv_exact (h : a.Exact) : decimalDiv (a.price * a.count) 1000 = a.price * a.count / 1000 := by
  obtain ⟨k, hk⟩ := h
  have hscaled : a.price * a.count / 1000 * 10 ^ 16 = ((k * a.count : Int) : ℚ) := by
    push_cast
    rw [← hk]
    ring
  rw [decimalDiv, hscaled, roundHalfAway_intCast, ← hscaled]
  field_simp

/-! ### The array -/

/-- A turn of the loop: the array and how much of it is the merged list, which is written over the
beginning of the array. -/
def compactAt (st : List ToolSurchargeItem × Nat) (i : Nat) : List ToolSurchargeItem × Nat :=
  match st.1[i]? with
  | none => st
  | some item =>
    let merged := mergeItem (st.1.take st.2) item
    (merged ++ st.1.drop merged.length, merged.length)

def compact (items : List ToolSurchargeItem) (turns : Nat) : List ToolSurchargeItem × Nat :=
  (List.range turns).foldl compactAt (items, 0)

theorem length_mergeItem (merged : List ToolSurchargeItem) (item : ToolSurchargeItem) :
    (mergeItem merged item).length ≤ merged.length + 1 := by
  unfold mergeItem
  split
  · simp
  · split_ifs <;> simp

variable {items : List ToolSurchargeItem}

/-- What is read next is still as it was, and the merged list is that of what was read. -/
theorem compact_spec {turns : Nat} (h : turns ≤ items.length) :
    (compact items turns).2 ≤ turns ∧ (compact items turns).1.drop turns = items.drop turns ∧
      (compact items turns).1.take (compact items turns).2 = (items.take turns).foldl mergeItem [] := by
  induction turns with
  | zero => simp [compact]
  | succ turns ih =>
    obtain ⟨hlen, hrest, hmerged⟩ := ih (Nat.le_of_succ_le h)
    have hstep : compact items (turns + 1) = compactAt (compact items turns) turns := by
      rw [compact, List.range_succ, List.foldl_append]
      rfl
    have hitem : (compact items turns).1[turns]? = some items[turns] := by
      rw [← List.head?_drop, hrest, List.head?_drop, List.getElem?_eq_getElem h]
    have hlength := length_mergeItem ((compact items turns).1.take (compact items turns).2) items[turns]
    rw [List.length_take] at hlength
    rw [hstep, compactAt, hitem, List.take_succ_eq_append_getElem h, List.foldl_append, ← hmerged]
    refine ⟨by dsimp only; omega, ?_, List.take_left⟩
    have hle := hlength.trans (by omega : _ ≤ turns + 1)
    rw [List.drop_append, List.drop_eq_nil_of_le hle, List.nil_append, List.drop_drop,
      Nat.add_sub_cancel' hle, ← List.drop_drop, hrest,
      List.drop_drop]

/-! ### The merged list -/

/-- The list that a sorted list of items is merged to: its names and prices in order, with all
calls. -/
structure Merges (l merged : List ToolSurchargeItem) : Prop where
  sorted : (merged.map ToolSurchargeItem.key).Pairwise (· < ·)
  mem_iff : ∀ k, k ∈ merged.map ToolSurchargeItem.key ↔ k ∈ l.map ToolSurchargeItem.key
  sum : ∀ f : String ×ₗ ℚ → ℚ, (merged.map fun x => f x.key * x.count).sum = (l.map fun x => f x.key * x.count).sum

theorem key_eq_iff : a.key = b.key ↔ a.name = b.name ∧ a.price = b.price := by
  simp [ToolSurchargeItem.key]

theorem Merges.mergeItem {l merged : List ToolSurchargeItem} {a : ToolSurchargeItem}
    (h : Merges l merged) (hle : ∀ b ∈ l, b.key ≤ a.key)
    (hfits : ∀ x ∈ merged, x.count + a.count ≤ maxInt) : Merges (l ++ [a]) (mergeItem merged a) := by
  have hbelow : ∀ x ∈ merged, x.key ≤ a.key := by
    intro x hx
    obtain ⟨b, hb, hkey⟩ := List.mem_map.1 ((h.mem_iff x.key).1 (List.mem_map_of_mem hx))
    exact hkey ▸ hle b hb
  cases hlast : merged.getLast? with
  | none =>
    rw [List.getLast?_eq_none_iff] at hlast
    have hnil : l = [] := by
      refine List.eq_nil_iff_forall_not_mem.2 fun b hb => ?_
      have hmem := (h.mem_iff b.key).2 (List.mem_map_of_mem hb)
      rw [hlast] at hmem
      cases hmem
    rw [hlast, hnil]
    exact ⟨List.pairwise_singleton _ _, fun _ => Iff.rfl, fun _ => rfl⟩
  | some last =>
    obtain ⟨front, rfl⟩ : ∃ front, merged = front ++ [last] := ⟨_, (List.dropLast_append_getLast? last hlast).symm⟩
    have hsorted := h.sorted
    rw [List.map_append, List.map_singleton, List.pairwise_append] at hsorted
    rw [TextQuota.mergeItem, hlast]
    dsimp only
    split_ifs with hsame
    · -- the key of the last item again
      have hkey : last.key = a.key := key_eq_iff.2 hsame
      rw [List.dropLast_concat, min_eq_left (hfits last (by simp))]
      have hmap : (front ++ [{ last with count := last.count + a.count }]).map ToolSurchargeItem.key
          = (front ++ [last]).map ToolSurchargeItem.key := by
        simp [ToolSurchargeItem.key]
      refine ⟨hmap ▸ h.sorted, fun k => ?_, fun f => ?_⟩
      · rw [hmap, h.mem_iff, List.map_append, List.mem_append, List.map_singleton, List.mem_singleton]
        constructor
        · exact Or.inl
        · rintro (hk | rfl)
          · exact hk
          · exact hkey ▸ (h.mem_iff last.key).1 (by simp)
      · have hsum := h.sum f
        simp only [List.map_append, List.sum_append, List.map_singleton, List.sum_singleton] at hsum ⊢
        rw [← hsum, ← hkey, ToolSurchargeItem.key, ToolSurchargeItem.key]
        push_cast
        ring
    · -- a key that is greater than all before
      have hlt : last.key < a.key := lt_of_le_of_ne (hbelow last (by simp)) fun hkey => hsame (key_eq_iff.1 hkey)
      refine ⟨?_, fun k => ?_, fun f => ?_⟩
      · rw [List.map_append, List.map_singleton, List.pairwise_append]
        refine ⟨h.sorted, List.pairwise_singleton _ _, fun k hk k' hk' => ?_⟩
        rw [List.mem_singleton.1 hk']
        rw [List.map_append, List.mem_append, List.map_singleton, List.mem_singleton] at hk
        rcases hk with hk | rfl
        · exact (hsorted.2.2 k hk last.key (List.mem_singleton_self _)).trans hlt
        · exact hlt
      · rw [List.map_append, List.mem_append, h.mem_iff, List.map_append, List.mem_append]
      · rw [List.map_append, List.sum_append, h.sum f, List.map_append, List.sum_append]

section

variable {l l' merged merged' : List ToolSurchargeItem} {x : ToolSurchargeItem}

theorem Merges.count_eq (h : Merges l merged) (hx : x ∈ merged) :
    (x.count : ℚ) = (l.map fun y => (if y.key = x.key then 1 else 0) * (y.count : ℚ)).sum := by
  rw [← h.sum fun k => if k = x.key then 1 else 0]
  have hnodup := h.sorted.nodup
  obtain ⟨front, back, rfl⟩ := List.append_of_mem hx
  rw [List.map_append, List.map_cons, List.nodup_middle, List.nodup_cons] at hnodup
  have hzero {m : List ToolSurchargeItem} (hm : ∀ y ∈ m, y ∈ front ∨ y ∈ back) :
      (m.map fun y => (if y.key = x.key then 1 else 0) * (y.count : ℚ)).sum = 0 := by
    refine List.sum_eq_zero fun q hq => ?_
    obtain ⟨y, hy, rfl⟩ := List.mem_map.1 hq
    have hne : y.key ≠ x.key := fun hkey => hnodup.1 (hkey ▸ by
      rcases hm y hy with hy | hy
      · exact List.mem_append_left _ (List.mem_map_of_mem hy)
      · exact List.mem_append_right _ (List.mem_map_of_mem hy))
    rw [if_neg hne, zero_mul]
  rw [List.map_append, List.map_cons, List.sum_append, List.sum_cons, hzero fun y hy => .inl hy,
    hzero fun y hy => .inr hy]
  simp

/-- The merged list is made of the items alone, not of their order. -/
theorem Merges.subset (h : Merges l merged) (h' : Merges l' merged') (hperm : l.Perm l')
    (hx : x ∈ merged) : x ∈ merged' := by
  have hkey := (h.mem_iff x.key).1 (List.mem_map_of_mem hx)
  rw [(hperm.map _).mem_iff, ← h'.mem_iff] at hkey
  obtain ⟨y, hy, hkey⟩ := List.mem_map.1 hkey
  have hcount : x.count = y.count := by
    have hsum := (h.count_eq hx).trans ((hperm.map _).sum_eq)
    rw [← hkey, ← h'.count_eq hy] at hsum
    exact_mod_cast hsum
  obtain ⟨hname, hprice⟩ := key_eq_iff.1 hkey
  have hxy : x = y := by
    cases x
    cases y
    simp_all
  rwa [hxy]

theorem Merges.unique (h : Merges l merged) (h' : Merges l' merged') (hperm : l.Perm l') : merged = merged' := by
  have hsame : merged.Perm merged' :=
    (List.perm_ext_iff_of_nodup (.of_map _ h.sorted.nodup) (.of_map _ h'.sorted.nodup)).2
    fun x => ⟨h.subset h' hperm, h'.subset h hperm.symm⟩
  refine hsame.eq_of_pairwise (fun a b _ _ hab hba => absurd hab hba.not_gt)
    (List.pairwise_map.1 h.sorted) (List.pairwise_map.1 h'.sorted)

theorem merges_foldl (hsorted : l.Pairwise fun a b => ¬ less b a) (hcount : ∀ item ∈ l, 0 < item.count)
    (htotal : (l.map (·.count)).sum ≤ maxInt) : Merges l (l.foldl TextQuota.mergeItem []) := by
  induction l using List.reverseRecOn with
  | nil => exact ⟨List.Pairwise.nil, fun _ => Iff.rfl, fun _ => rfl⟩
  | append_singleton l a ih =>
    rw [List.pairwise_append] at hsorted
    rw [List.map_append, List.sum_append, List.map_singleton, List.sum_singleton] at htotal
    have ha := hcount a (by simp)
    have h := ih hsorted.1 (fun item hitem => hcount item (List.mem_append_left _ hitem)) (by omega)
    rw [List.foldl_append]
    refine h.mergeItem (fun b hb => ?_) fun x hx => ?_
    · have hle := hsorted.2.2 b hb a (List.mem_singleton_self a)
      rwa [less_iff, not_lt] at hle
    · have hle : (x.count : ℚ) ≤ ((l.map (·.count)).sum : Int) := by
        rw [h.count_eq hx, Int.cast_list_sum, List.map_map]
        refine List.sum_le_sum fun y hy => ?_
        have hy := hcount y (List.mem_append_left _ hy)
        dsimp only [Function.comp]
        split_ifs
        · rw [one_mul]
        · rw [zero_mul]
          exact_mod_cast hy.le
      have hle : x.count ≤ (l.map (·.count)).sum := by exact_mod_cast hle
      omega

end

theorem sorted_insertionSort :
    (items.insertionSort fun a b => a.name < b.name ∨ a.name = b.name ∧ a.price ≤ b.price).Pairwise
      fun a b => ¬ less b a := by
  let le (a b : ToolSurchargeItem) : Prop := a.name < b.name ∨ a.name = b.name ∧ a.price ≤ b.price
  have hle (a b : ToolSurchargeItem) : le a b ↔ a.key ≤ b.key := by
    rw [ToolSurchargeItem.key, ToolSurchargeItem.key, Prod.Lex.toLex_le_toLex]
  have : Std.Total le := ⟨fun a b => by simpa only [hle] using le_total a.key b.key⟩
  have : IsTrans ToolSurchargeItem le := ⟨fun a b c => by simpa only [hle] using le_trans⟩
  refine (List.pairwise_insertionSort le items).imp fun {a b} h => ?_
  rw [less_iff, not_lt]
  exact (hle a b).1 h

/-- `l` is what the sort makes of the items in whatever order they come. -/
theorem merge_spec (info : RelayInfo) (items l : List ToolSurchargeItem) (hcount : ∀ item ∈ items, 0 < item.count)
    (htotal : (items.map (·.count)).sum < 2 ^ 63) (hperm : l.Perm items) (hsorted : l.Pairwise fun a b => ¬ less b a) :
    (compact l l.length).1.take (compact l l.length).2 = mergeToolSurchargeItems items ∧
    (mergeToolSurchargeItems items).Pairwise (fun a b => ¬ (a.name = b.name ∧ a.price = b.price)) ∧
    (∀ name price, ((mergeToolSurchargeItems items).map fun x => if x.name = name ∧
      x.price = price then x.count else 0).sum
      = (items.map fun x => if x.name = name ∧ x.price = price then x.count else 0).sum) ∧
    ((collectedItems info).Perm items → (∀ item ∈ items, ∃ k : Int, item.price * 10 ^ 13 = k) →
      calculateTextToolCallSurcharge info = (items.map fun item =>
        item.price * item.count / 1000 * info.priceData.groupRatio * info.quotaPerUnit).sum) ∧
    ∀ turns ≤ l.length, (compact l turns).1.drop turns = l.drop turns := by
  have hmax : (items.map (·.count)).sum ≤ maxInt := by
    rw [maxInt]
    omega
  have hmerges {l : List ToolSurchargeItem} (hperm : l.Perm items) (hsorted : l.Pairwise fun a b => ¬ less b a) :
      Merges l (l.foldl mergeItem []) :=
    merges_foldl hsorted (fun item hitem => hcount item (hperm.mem_iff.1 hitem))
      ((hperm.map (·.count)).sum_eq.le.trans hmax)
  have hsort := List.perm_insertionSort
    (fun a b : ToolSurchargeItem => a.name < b.name ∨ a.name = b.name ∧ a.price ≤ b.price) items
  have h : Merges _ (mergeToolSurchargeItems items) := hmerges hsort sorted_insertionSort
  have hsum (f : String ×ₗ ℚ → ℚ) : ((mergeToolSurchargeItems items).map fun x => f x.key * x.count).sum
      = (items.map fun x => f x.key * x.count).sum := (h.sum f).trans (hsort.map _).sum_eq
  refine ⟨?_, ?_, fun name price => ?_, fun hcollected hexact => ?_, fun turns hturns => (compact_spec hturns).2.1⟩
  · rw [(compact_spec le_rfl).2.2, List.take_length]
    exact (hmerges hperm hsorted).unique h (hperm.trans hsort.symm)
  · refine (List.pairwise_map.1 h.sorted).imp fun {a b} hlt hsame => ?_
    exact absurd (key_eq_iff.2 hsame) hlt.ne
  · have hcast (m : List ToolSurchargeItem) :
        (((m.map fun x => if x.name = name ∧ x.price = price then x.count else 0).sum : Int) : ℚ)
          = (m.map fun x => (if x.key = toLex (name, price) then 1 else 0) * (x.count : ℚ)).sum := by
      rw [Int.cast_list_sum, List.map_map]
      congr 1
      refine List.map_congr_left fun x _ => ?_
      simp only [Function.comp, ToolSurchargeItem.key, EmbeddingLike.apply_eq_iff_eq, Prod.mk.injEq]
      split_ifs <;> simp
    have hq := hsum fun k => if k = toLex (name, price) then 1 else 0
    rw [← hcast, ← hcast] at hq
    exact_mod_cast hq
  · -- the items of the request are merged to the same list
    have hsame : mergeToolSurchargeItems (collectedItems info) = mergeToolSurchargeItems items := by
      have hperm := (List.perm_insertionSort (fun a b : ToolSurchargeItem =>
        a.name < b.name ∨ a.name = b.name ∧ a.price ≤ b.price) (collectedItems info)).trans hcollected
      exact (hmerges hperm sorted_insertionSort).unique h (hperm.trans hsort.symm)
    have hkept : ∀ x ∈ mergeToolSurchargeItems items, x.Exact := by
      intro x hx
      have hkey := (h.mem_iff x.key).1 (List.mem_map_of_mem hx)
      obtain ⟨y, hy, hkey⟩ := List.mem_map.1 hkey
      rw [ToolSurchargeItem.Exact, ← (key_eq_iff.1 hkey).2]
      exact hexact y (hsort.mem_iff.1 hy)
    have hq := hsum fun k => (ofLex k).2 / 1000 * info.priceData.groupRatio * info.quotaPerUnit
    have hterm (x : ToolSurchargeItem) : x.price * x.count / 1000 * info.priceData.groupRatio * info.quotaPerUnit
        = (ofLex x.key).2 / 1000 * info.priceData.groupRatio * info.quotaPerUnit * x.count := by
      rw [ToolSurchargeItem.key, ofLex_toLex]
      ring
    rw [calculateTextToolCallSurcharge, toolSurchargeItems, hsame]
    simp only [hterm, ← hq]
    exact congrArg List.sum (List.map_congr_left fun x hx => by rw [decimalDiv_exact (hkept x hx), hterm])

/-- Claude's web searches are counted in two places. -/
theorem merge_spec_three :
    let info : RelayInfo :=
      { builtInTools := [("web_search", 2), ("file_search", 1)], claudeWebSearchRequests := 1,
        toolPrice := fun name => if name = "web_search" then 10 else 5 / 2 }
    collectedItems info = [⟨"web_search", 2, 10⟩, ⟨"file_search", 1, 5 / 2⟩, ⟨"web_search", 1, 10⟩] ∧
      toolSurchargeItems info = [⟨"file_search", 1, 5 / 2⟩, ⟨"web_search", 3, 10⟩] ∧
      calculateTextToolCallSurcharge info = 16250 := by
  intro info
  have hitems : collectedItems info =
      [⟨"web_search", 2, 10⟩, ⟨"file_search", 1, 5 / 2⟩, ⟨"web_search", 1, 10⟩] := by decide +kernel
  have hsorted : [(⟨"file_search", 1, 5 / 2⟩ : ToolSurchargeItem), ⟨"web_search", 2, 10⟩,
      ⟨"web_search", 1, 10⟩].Pairwise fun a b => ¬ less b a := by
    unfold less
    decide +kernel
  obtain ⟨hmerged, -, -, hsurcharge, -⟩ := merge_spec info (collectedItems info)
    [⟨"file_search", 1, 5 / 2⟩, ⟨"web_search", 2, 10⟩, ⟨"web_search", 1, 10⟩]
    (by rw [hitems]; decide) (by rw [hitems]; decide) (by rw [hitems]; decide +kernel) hsorted
  refine ⟨hitems, hmerged.symm.trans (by decide +kernel), (hsurcharge (List.Perm.refl _) ?_).trans ?_⟩
  · rw [hitems]
    simp only [List.forall_mem_cons, List.not_mem_nil]
    exact ⟨⟨10 ^ 14, by norm_num⟩, ⟨25 * 10 ^ 12, by norm_num⟩, ⟨10 ^ 14, by norm_num⟩, by simp⟩
  · rw [hitems]
    norm_num [info]

end TokenEra.TextQuota
