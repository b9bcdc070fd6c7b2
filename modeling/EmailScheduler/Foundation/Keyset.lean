import EmailScheduler.Foundation.Pagination
import Mathlib.Data.Finset.Card

/-!
# Keyset pagination

A page lists the rows whose key comes after a cursor, at most `limit` of them in the order of the
key; if there are more, its next cursor is the key of its last row. `followPages` reads page after
page, each from the rows as they stand at that time, up to the page without a next cursor.

Whatever happens to the rows in between, the keys that are read increase strictly
(`pairwise_followPages`), and a key that is there each time is read (`exists_mem_followPages`).
-/

set_option autoImplicit false

namespace Foundation

universe u v w

variable {α : Type u} {κ : Type v} [LinearOrder κ]

/-- The rows after a cursor, in the order of the key. -/
def rowsAfter (key : α → κ) (cursor : Option κ) (rows : List α) : List α :=
  (rows.filter fun r => cursor.all fun c => decide (c < key r)).insertionSort
    fun a b => key a ≤ key b

/-- A page, and its next cursor. The query asks for one row more than the page holds. -/
def keysetPage (key : α → κ) (limit : Nat) (cursor : Option κ) (rows : List α) :
    List α × Option κ :=
  let found := (rowsAfter key cursor rows).take (limit + 1)
  let page := found.take limit
  (page, if found.length > limit then page.getLast?.map key else none)

/-- The pages from a cursor on, each from the next rows of a list. There is no result if the last
page has a next cursor, or an earlier one has none. -/
def followPages (key : α → κ) (limit : Nat) : Option κ → List (List α) → Option (List α)
  | _, [] => none
  | cursor, rows :: later =>
      match keysetPage key limit cursor rows with
      | (page, none) => if later.isEmpty then some page else none
      | (page, some next) => (followPages key limit (some next) later).map (page ++ ·)

variable {key : α → κ} {limit : Nat} {cursor : Option κ} {rows : List α}

/-! ## One page -/

theorem mem_rowsAfter {r : α} :
    r ∈ rowsAfter key cursor rows ↔ r ∈ rows ∧ ∀ c ∈ cursor, c < key r := by
  simp [rowsAfter, List.mem_insertionSort, Option.all_eq_true]

theorem pairwise_rowsAfter (hkey : PrimaryKey key rows) :
    (rowsAfter key cursor rows).Pairwise fun a b => key a < key b :=
  pairwise_insertionSort_of_primaryKey (hkey.filter _)

/-- A page is the beginning of what comes after its cursor. -/
theorem keysetPage_fst :
    (keysetPage key limit cursor rows).1 = (rowsAfter key cursor rows).take limit := by
  simp [keysetPage, List.take_take]

/-- The rows of a page come after its cursor. -/
theorem mem_keysetPage {r : α} (h : r ∈ (keysetPage key limit cursor rows).1) :
    r ∈ rows ∧ ∀ c ∈ cursor, c < key r := by
  rw [keysetPage_fst] at h
  exact mem_rowsAfter.1 (List.mem_of_mem_take h)

theorem pairwise_keysetPage (hkey : PrimaryKey key rows) :
    (keysetPage key limit cursor rows).1.Pairwise fun a b => key a < key b := by
  rw [keysetPage_fst]
  exact (pairwise_rowsAfter hkey).sublist (List.take_sublist _ _)

/-- A page without a next cursor holds everything that comes after its cursor. -/
theorem mem_keysetPage_of_last {r : α} (hlast : (keysetPage key limit cursor rows).2 = none)
    (hlimit : 1 ≤ limit) (hr : r ∈ rows) (hcursor : ∀ c ∈ cursor, c < key r) :
    r ∈ (keysetPage key limit cursor rows).1 := by
  have hmem : r ∈ rowsAfter key cursor rows := mem_rowsAfter.2 ⟨hr, hcursor⟩
  rw [keysetPage_fst]
  by_cases hmore : (rowsAfter key cursor rows).length ≤ limit
  · rw [List.take_of_length_le hmore]
    exact hmem
  · -- A full page has a last row.
    exfalso
    unfold keysetPage at hlast
    dsimp only at hlast
    rw [if_pos (by rw [List.length_take]; omega), Option.map_eq_none_iff,
      List.getLast?_eq_none_iff, List.take_take, List.take_eq_nil_iff] at hlast
    rcases hlast with hzero | hnil
    · omega
    · rw [hnil] at hmem
      cases hmem

/-- The next cursor is the key of the last row of the page. -/
theorem exists_last_of_next {next : κ} (h : (keysetPage key limit cursor rows).2 = some next) :
    ∃ last, (keysetPage key limit cursor rows).1.getLast? = some last ∧ key last = next := by
  unfold keysetPage at h ⊢
  dsimp only at h ⊢
  split at h
  · exact Option.map_eq_some_iff.1 h
  · cases h

/-- No row of a page comes after its next cursor. -/
theorem le_next_of_mem {r : α} {next : κ} (hkey : PrimaryKey key rows)
    (h : (keysetPage key limit cursor rows).2 = some next)
    (hr : r ∈ (keysetPage key limit cursor rows).1) : key r ≤ next := by
  obtain ⟨last, hlast, rfl⟩ := exists_last_of_next h
  have hsorted : (keysetPage key limit cursor rows).1.Pairwise fun a b => key a < key b :=
    pairwise_keysetPage hkey
  obtain ⟨front, hpage⟩ := List.getLast?_eq_some_iff.1 hlast
  rw [hpage] at hsorted hr
  rcases List.mem_append.1 hr with hr | hr
  · exact le_of_lt ((List.pairwise_append.1 hsorted).2.2 r hr last (List.mem_singleton_self _))
  · rw [List.mem_singleton.1 hr]

/-- The cursor moves on. -/
theorem lt_next {next : κ} (h : (keysetPage key limit cursor rows).2 = some next) :
    ∀ c ∈ cursor, c < next := by
  obtain ⟨last, hlast, rfl⟩ := exists_last_of_next h
  exact (mem_keysetPage (List.mem_of_getLast? hlast)).2

/-- **A page and its next cursor miss nothing**: a row after the cursor is on the page, or it comes
after the next cursor. -/
theorem mem_keysetPage_or_lt {r : α} {next : κ} (hkey : PrimaryKey key rows)
    (h : (keysetPage key limit cursor rows).2 = some next) (hr : r ∈ rows)
    (hcursor : ∀ c ∈ cursor, c < key r) :
    r ∈ (keysetPage key limit cursor rows).1 ∨ next < key r := by
  obtain ⟨last, hlast, rfl⟩ := exists_last_of_next h
  have hlast' := List.mem_of_getLast? hlast
  rw [keysetPage_fst] at hlast' ⊢
  have hmem : r ∈ rowsAfter key cursor rows := mem_rowsAfter.2 ⟨hr, hcursor⟩
  exact (mem_take_or_lt (pairwise_rowsAfter hkey) hmem limit).imp_right fun h => h.2 last hlast'

/-- A page of what rows are shown as. -/
theorem keysetPage_map {β : Type w} (shown : α → β) (key : β → κ) (limit : Nat) (cursor : Option κ)
    (rows : List α) :
    keysetPage key limit cursor (rows.map shown) =
      ((keysetPage (fun r => key (shown r)) limit cursor rows).1.map shown,
        (keysetPage (fun r => key (shown r)) limit cursor rows).2) := by
  have hrows : rowsAfter key cursor (rows.map shown) =
      (rowsAfter (fun r => key (shown r)) cursor rows).map shown := by
    unfold rowsAfter
    rw [List.filter_map]
    exact (List.map_insertionSort (fun a b => key (shown a) ≤ key (shown b))
      (fun a b => key a ≤ key b) shown _ fun a _ b _ => Iff.rfl).symm
  unfold keysetPage
  dsimp only
  rw [hrows, ← List.map_take, ← List.map_take, List.length_map, List.getLast?_map, Option.map_map]
  rfl

/-! ## Page after page -/

/-- What a run of pages consists of: one page without a next cursor, or a page with one and the
pages from there on. -/
theorem followPages_cases {later : List (List α)} {items : List α}
    (h : followPages key limit cursor (rows :: later) = some items) :
    ((keysetPage key limit cursor rows).2 = none ∧ later = [] ∧
        items = (keysetPage key limit cursor rows).1) ∨
      ∃ next rest, (keysetPage key limit cursor rows).2 = some next ∧
        followPages key limit (some next) later = some rest ∧
        items = (keysetPage key limit cursor rows).1 ++ rest := by
  rw [followPages] at h
  split at h
  next page heq =>
    rw [heq]
    split at h
    next hempty =>
      exact Or.inl ⟨rfl, List.isEmpty_iff.1 hempty, (Option.some.inj h).symm⟩
    next => cases h
  next page next heq =>
    rw [heq]
    obtain ⟨rest, hrest, rfl⟩ := Option.map_eq_some_iff.1 h
    exact Or.inr ⟨next, rest, rfl, hrest, rfl⟩

/-- **Every row that is read** comes after the cursor, and is one of the rows at some time. -/
theorem mem_followPages {tables : List (List α)} {items : List α} {r : α}
    (h : followPages key limit cursor tables = some items) (hr : r ∈ items) :
    (∃ rows ∈ tables, r ∈ rows) ∧ ∀ c ∈ cursor, c < key r := by
  induction tables generalizing cursor items with
  | nil => cases h
  | cons rows later ih =>
      have hpage : r ∈ (keysetPage key limit cursor rows).1 →
          (∃ rows' ∈ rows :: later, r ∈ rows') ∧ ∀ c ∈ cursor, c < key r := by
        intro hr
        obtain ⟨hmem, hcursor⟩ := mem_keysetPage hr
        exact ⟨⟨rows, List.mem_cons_self, hmem⟩, hcursor⟩
      rcases followPages_cases h with ⟨-, -, rfl⟩ | ⟨next, rest, hnext, hrest, rfl⟩
      · exact hpage hr
      · rcases List.mem_append.1 hr with hr | hr
        · exact hpage hr
        · obtain ⟨⟨rows', hrows', hmem⟩, hlt⟩ := ih hrest hr
          refine ⟨⟨rows', List.mem_cons_of_mem _ hrows', hmem⟩, fun c hc => ?_⟩
          exact (lt_next hnext c hc).trans (hlt next rfl)

/-- **The keys that are read increase strictly**, over all pages. -/
theorem pairwise_followPages {tables : List (List α)} {items : List α}
    (hkey : ∀ rows ∈ tables, PrimaryKey key rows)
    (h : followPages key limit cursor tables = some items) :
    items.Pairwise fun a b => key a < key b := by
  induction tables generalizing cursor items with
  | nil => cases h
  | cons rows later ih =>
      have hrows := hkey rows List.mem_cons_self
      rcases followPages_cases h with ⟨-, -, rfl⟩ | ⟨next, rest, hnext, hrest, rfl⟩
      · exact pairwise_keysetPage hrows
      · rw [List.pairwise_append]
        refine ⟨pairwise_keysetPage hrows,
          ih (fun rows' h => hkey rows' (List.mem_cons_of_mem _ h)) hrest, ?_⟩
        -- The page ends at the next cursor, and the rest comes after it.
        intro a ha b hb
        exact lt_of_le_of_lt (le_next_of_mem hrows hnext ha) ((mem_followPages hrest hb).2 next rfl)

/-- **A key that is there each time is read.** -/
theorem exists_mem_followPages {tables : List (List α)} {items : List α} {k : κ}
    (hlimit : 1 ≤ limit) (hkey : ∀ rows ∈ tables, PrimaryKey key rows)
    (h : followPages key limit cursor tables = some items)
    (hthere : ∀ rows ∈ tables, ∃ r ∈ rows, key r = k) (hcursor : ∀ c ∈ cursor, c < k) :
    ∃ r ∈ items, key r = k := by
  induction tables generalizing cursor items with
  | nil => cases h
  | cons rows later ih =>
      obtain ⟨r, hr, rfl⟩ := hthere rows List.mem_cons_self
      rcases followPages_cases h with ⟨hlast, -, rfl⟩ | ⟨next, rest, hnext, hrest, rfl⟩
      · exact ⟨r, mem_keysetPage_of_last hlast hlimit hr hcursor, rfl⟩
      · rcases mem_keysetPage_or_lt (hkey rows List.mem_cons_self) hnext hr hcursor with hpage | hlt
        · exact ⟨r, List.mem_append_left _ hpage, rfl⟩
        · -- The key comes after the next cursor, so a later page has it.
          obtain ⟨q, hq, heq⟩ := ih (fun rows' h => hkey rows' (List.mem_cons_of_mem _ h)) hrest
            (fun rows' h => hthere rows' (List.mem_cons_of_mem _ h))
            (fun c hc => by rw [← Option.mem_some_iff.1 hc]; exact hlt)
          exact ⟨q, List.mem_append_right _ hq, heq⟩

/-- In a list with increasing keys, a condition that is met at one key only picks one element. -/
theorem filter_eq_singleton {p : α → Bool} {items : List α} {r : α}
    (hsorted : items.Pairwise fun a b => key a < key b) (hr : r ∈ items) (hp : p r = true)
    (hsame : ∀ q ∈ items, p q = true → key q = key r) : items.filter p = [r] := by
  have hmem : r ∈ items.filter p := List.mem_filter.2 ⟨hr, hp⟩
  have hkeys : ∀ q ∈ items.filter p, key q = key r := by
    intro q hq
    obtain ⟨hq, hpq⟩ := List.mem_filter.1 hq
    exact hsame q hq hpq
  have hpairwise := hsorted.filter p
  cases hfilter : items.filter p with
  | nil =>
      rw [hfilter] at hmem
      cases hmem
  | cons q rest =>
      rw [hfilter] at hmem hkeys hpairwise
      cases rest with
      | nil => rw [List.mem_singleton.1 hmem]
      | cons q' rest =>
          have hlt := List.rel_of_pairwise_cons hpairwise (List.mem_cons_self (a := q'))
          rw [hkeys q List.mem_cons_self,
            hkeys q' (List.mem_cons_of_mem _ List.mem_cons_self)] at hlt
          exact absurd hlt (lt_irrefl _)

/-- A page without a next cursor is the last one. -/
theorem followPages_last (h : (keysetPage key limit cursor rows).2 = none) :
    followPages key limit cursor [rows] = some (keysetPage key limit cursor rows).1 := by
  rw [followPages]
  split
  next page heq =>
    rw [heq]
    rfl
  next page next heq =>
    rw [heq] at h
    cases h

/-- The pages from the next cursor on come after a page that has one. -/
theorem followPages_next {next : κ} {later : List (List α)} {rest : List α}
    (h : (keysetPage key limit cursor rows).2 = some next)
    (hrest : followPages key limit (some next) later = some rest) :
    followPages key limit cursor (rows :: later) =
      some ((keysetPage key limit cursor rows).1 ++ rest) := by
  rw [followPages]
  split
  next page heq =>
    rw [heq] at h
    cases h
  next page next' heq =>
    rw [heq] at h ⊢
    cases h
    rw [hrest]
    rfl

/-- **The pages come to an end** if all keys that ever occur are among these: the next cursor is one
of them, and it moves on. By induction on how many come after the cursor. -/
theorem exists_followPages (limit : Nat) (keys : Finset κ) (cursor : Option κ)
    (states : Nat → List α) (hkeys : ∀ n, ∀ r ∈ states n, key r ∈ keys) :
    ∃ n items, followPages key limit cursor ((List.range n).map states) = some items := by
  generalize hleft : (keys.filter fun k => ∀ c ∈ cursor, c < k).card = left
  induction left using Nat.strong_induction_on generalizing cursor states with
  | _ left ih =>
      cases hnext : (keysetPage key limit cursor (states 0)).2 with
      | none => exact ⟨1, _, followPages_last hnext⟩
      | some next =>
          obtain ⟨last, hlast, heq⟩ := exists_last_of_next hnext
          have hmem : next ∈ keys.filter fun k => ∀ c ∈ cursor, c < k := by
            rw [Finset.mem_filter, ← heq]
            exact ⟨hkeys 0 last (mem_keysetPage (List.mem_of_getLast? hlast)).1,
              heq ▸ lt_next hnext⟩
          have hfewer : (keys.filter fun k => ∀ c ∈ some next, c < k).card < left := by
            rw [← hleft]
            refine Finset.card_lt_card ⟨?_, ?_⟩
            · intro k hk
              rw [Finset.mem_filter] at hk ⊢
              exact ⟨hk.1, fun c hc => (lt_next hnext c hc).trans (hk.2 next rfl)⟩
            · intro hsubset
              exact lt_irrefl next ((Finset.mem_filter.1 (hsubset hmem)).2 next rfl)
          obtain ⟨n, rest, hrest⟩ := ih _ hfewer (some next) (fun n => states (n + 1))
            (fun n => hkeys (n + 1)) rfl
          refine ⟨n + 1, (keysetPage key limit cursor (states 0)).1 ++ rest, ?_⟩
          rw [List.range_succ_eq_map, List.map_cons, List.map_map]
          exact followPages_next hnext hrest

/-- **Pages of rows that stay the same** are the rows, each once. -/
theorem perm_of_followPages {n : Nat} {items : List α} (hlimit : 1 ≤ limit)
    (hkey : PrimaryKey key rows)
    (h : followPages key limit none (List.replicate n rows) = some items) : items.Perm rows := by
  have hsame : ∀ rows' ∈ List.replicate n rows, rows' = rows := fun _ => List.eq_of_mem_replicate
  have hkeys : ∀ rows' ∈ List.replicate n rows, PrimaryKey key rows' := by
    intro rows' hrows
    rw [hsame rows' hrows]
    exact hkey
  have hmem : ∀ r ∈ items, r ∈ rows := by
    intro r hr
    obtain ⟨⟨rows', hrows, hr'⟩, -⟩ := mem_followPages h hr
    rwa [hsame rows' hrows] at hr'
  refine (List.perm_ext_iff_of_nodup ?_ hkey.of_map).2 fun r => ⟨hmem r, fun hr => ?_⟩
  · refine (pairwise_followPages hkeys h).imp ?_
    rintro a b hlt rfl
    exact lt_irrefl _ hlt
  · have hthere : ∀ rows' ∈ List.replicate n rows, ∃ q ∈ rows', key q = key r := by
      intro rows' hrows
      rw [hsame rows' hrows]
      exact ⟨r, hr, rfl⟩
    obtain ⟨q, hq, hqr⟩ := exists_mem_followPages hlimit hkeys h hthere fun c hc => nomatch hc
    rwa [hkey.eq_of_key_eq (hmem q hq) hr hqr] at hq

end Foundation
