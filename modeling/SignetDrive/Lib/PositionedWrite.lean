import Mathlib.Tactic

/-!
# Positioned writes

A file that is written in pieces, each at its own offset, in any order. If each piece is what
some target holds there and they cover it, the file is the target.
-/

namespace PositionedWrite

variable {α : Type} {file target buf : List α} {offset k : ℕ}

def Holds (file target : List α) (k : ℕ) : Prop := ∃ a, file[k]? = some a ∧ target[k]? = some a

lemma eq_of_holds (hlen : file.length ≤ target.length) (h : ∀ k < target.length, Holds file target k) :
    file = target := by
  apply List.ext_getElem?
  intro k
  by_cases hk : k < target.length
  · obtain ⟨a, hfile, htarget⟩ := h k hk
    rw [hfile, htarget]
  · rw [List.getElem?_eq_none (by omega), List.getElem?_eq_none (by omega)]

lemma getElem?_of_prefix_drop (h : buf <+: target.drop offset) (hlow : offset ≤ k)
    (hhigh : k < offset + buf.length) : buf[k - offset]? = target[k]? := by
  obtain ⟨rest, hrest⟩ := h
  have hdrop : (target.drop offset)[k - offset]? = target[k]? := by
    rw [List.getElem?_drop, Nat.add_sub_cancel' hlow]
  rw [← hdrop, ← hrest, List.getElem?_append_left (by omega)]

lemma add_length_le_of_prefix_drop (h : buf <+: target.drop offset) (hbuf : buf ≠ []) :
    offset + buf.length ≤ target.length := by
  have hle := h.length_le
  have hpos := List.length_pos_iff.mpr hbuf
  rw [List.length_drop] at hle
  omega

def block (size : ℕ) (target : List α) (i : ℕ) : List α := (target.drop (i * size)).take size

variable {size i : ℕ}

lemma block_prefix_drop : block size target i <+: target.drop (i * size) := List.take_prefix size _

lemma length_block : (block size target i).length = min size (target.length - i * size) := by
  rw [block, List.length_take, List.length_drop]

lemma mem_block_div (hsize : 0 < size) (hk : k < target.length) :
    k / size * size ≤ k ∧ k < k / size * size + (block size target (k / size)).length := by
  have hdiv := Nat.div_add_mod k size
  have hmod := Nat.mod_lt k hsize
  rw [Nat.mul_comm] at hdiv
  rw [length_block]
  omega

variable [Inhabited α]

/-- Write the whole buffer at the offset. A gap before it is filled; an empty buffer writes
nothing. -/
def writeAt (file : List α) (offset : ℕ) : List α → List α
  | [] => file
  | b :: buf =>
    (file ++ List.replicate (offset - file.length) default).take offset ++ (b :: buf) ++
      file.drop (offset + (b :: buf).length)

lemma length_writeAt (hbuf : buf ≠ []) :
    (writeAt file offset buf).length = max file.length (offset + buf.length) := by
  cases buf with
  | nil => exact absurd rfl hbuf
  | cons b buf =>
    simp only [writeAt, List.length_append, List.length_take, List.length_replicate, List.length_drop,
      List.length_cons]
    omega

lemma le_length_writeAt : file.length ≤ (writeAt file offset buf).length := by
  by_cases hbuf : buf = []
  · rw [hbuf, writeAt]
  · rw [length_writeAt hbuf]
    exact le_max_left _ _

lemma length_writeAt_le {total : ℕ} (hfile : file.length ≤ total)
    (hbuf : buf ≠ [] → offset + buf.length ≤ total) : (writeAt file offset buf).length ≤ total := by
  by_cases hnil : buf = []
  · rw [hnil, writeAt]
    exact hfile
  · rw [length_writeAt hnil]
    exact max_le hfile (hbuf hnil)

lemma getElem?_writeAt_mem (hlow : offset ≤ k) (hhigh : k < offset + buf.length) :
    (writeAt file offset buf)[k]? = buf[k - offset]? := by
  cases buf with
  | nil => simp at hhigh; omega
  | cons b buf =>
    have hlen : ((file ++ List.replicate (offset - file.length) default).take offset).length = offset := by
      simp only [List.length_take, List.length_append, List.length_replicate]
      omega
    rw [writeAt, List.append_assoc, List.getElem?_append_right (by omega), hlen,
      List.getElem?_append_left (by omega)]

lemma getElem?_writeAt_not_mem (hk : k < file.length) (hout : k < offset ∨ offset + buf.length ≤ k) :
    (writeAt file offset buf)[k]? = file[k]? := by
  cases buf with
  | nil => rfl
  | cons b buf =>
    have hlen : ((file ++ List.replicate (offset - file.length) default).take offset).length = offset := by
      simp only [List.length_take, List.length_append, List.length_replicate]
      omega
    rcases hout with hout | hout
    · rw [writeAt, List.append_assoc, List.getElem?_append_left (by omega), List.getElem?_take_of_lt hout,
        List.getElem?_append_left hk]
    · rw [writeAt, List.getElem?_append_right (by rw [List.length_append, hlen]; exact hout),
        List.getElem?_drop, List.length_append, hlen]
      congr 1
      omega

lemma holds_writeAt (h : buf <+: target.drop offset) (hlow : offset ≤ k) (hhigh : k < offset + buf.length) :
    Holds (writeAt file offset buf) target k := by
  have hlt : k - offset < buf.length := by omega
  refine ⟨buf[k - offset], ?_, ?_⟩
  · rw [getElem?_writeAt_mem hlow hhigh, List.getElem?_eq_getElem hlt]
  · rw [← getElem?_of_prefix_drop h hlow hhigh, List.getElem?_eq_getElem hlt]

lemma Holds.writeAt (hk : Holds file target k) (h : buf <+: target.drop offset) :
    Holds (writeAt file offset buf) target k := by
  by_cases hmem : offset ≤ k ∧ k < offset + buf.length
  · exact holds_writeAt h hmem.1 hmem.2
  · obtain ⟨a, hfile, htarget⟩ := hk
    refine ⟨a, ?_, htarget⟩
    rw [getElem?_writeAt_not_mem (List.getElem?_eq_some_iff.mp hfile).1 (by omega), hfile]

def writeAll (writes : List (ℕ × List α)) (file : List α) : List α :=
  writes.foldl (fun file w => writeAt file w.1 w.2) file

variable {writes : List (ℕ × List α)}

lemma writeAll_concat {w : ℕ × List α} :
    writeAll (writes ++ [w]) file = writeAt (writeAll writes file) w.1 w.2 := by
  rw [writeAll, List.foldl_append]
  rfl

lemma length_writeAll_le {total : ℕ} (hfile : file.length ≤ total)
    (h : ∀ w ∈ writes, w.2 ≠ [] → w.1 + w.2.length ≤ total) : (writeAll writes file).length ≤ total := by
  induction writes generalizing file with
  | nil => exact hfile
  | cons w writes ih =>
    exact ih (length_writeAt_le hfile (h w List.mem_cons_self)) fun v hv => h v (List.mem_cons_of_mem w hv)

lemma le_length_writeAll : file.length ≤ (writeAll writes file).length := by
  induction writes generalizing file with
  | nil => exact le_rfl
  | cons w writes ih => exact le_length_writeAt.trans ih

lemma end_le_length_writeAll {w : ℕ × List α} (hmem : w ∈ writes) (hw : w.2 ≠ []) :
    w.1 + w.2.length ≤ (writeAll writes file).length := by
  induction writes generalizing file with
  | nil => cases hmem
  | cons v writes ih =>
    rcases List.mem_cons.mp hmem with rfl | hmem
    · have hwritten : w.1 + w.2.length ≤ (writeAt file w.1 w.2).length := by
        rw [length_writeAt hw]
        exact le_max_right _ _
      exact hwritten.trans le_length_writeAll
    · exact ih hmem

def Covered (writes : List (ℕ × List α)) (k : ℕ) : Prop := ∃ w ∈ writes, w.1 ≤ k ∧ k < w.1 + w.2.length

lemma holds_writeAll (hwrites : ∀ w ∈ writes, w.2 <+: target.drop w.1)
    (h : Holds file target k ∨ Covered writes k) : Holds (writeAll writes file) target k := by
  induction writes generalizing file with
  | nil =>
    rcases h with h | ⟨w, hw, -⟩
    · exact h
    · cases hw
  | cons v writes ih =>
    apply ih fun w hw => hwrites w (List.mem_cons_of_mem v hw)
    rcases h with h | ⟨w, hw, hlow, hhigh⟩
    · left
      exact h.writeAt (hwrites v List.mem_cons_self)
    · rcases List.mem_cons.mp hw with rfl | hw
      · left
        exact holds_writeAt (hwrites w List.mem_cons_self) hlow hhigh
      · right
        exact ⟨w, hw, hlow, hhigh⟩

theorem writeAll_eq (hwrites : ∀ w ∈ writes, w.2 <+: target.drop w.1)
    (hcover : ∀ k < target.length, Covered writes k) : writeAll writes [] = target := by
  apply eq_of_holds
  · apply length_writeAll_le (Nat.zero_le _)
    intro w hw
    exact add_length_le_of_prefix_drop (hwrites w hw)
  · intro k hk
    exact holds_writeAll hwrites (.inr (hcover k hk))

def writeBlocks (size : ℕ) (target : List α) (order : List ℕ) (file : List α) : List α :=
  writeAll (order.map fun i => (i * size, block size target i)) file

/-- Writing the blocks at their offsets, in any order that leaves none out, rebuilds the list. -/
theorem writeBlocks_eq {order : List ℕ} (hsize : 0 < size) (hall : ∀ k < target.length, k / size ∈ order) :
    writeBlocks size target order [] = target := by
  apply writeAll_eq
  · intro w hw
    obtain ⟨i, -, rfl⟩ := List.mem_map.mp hw
    exact block_prefix_drop
  · intro k hk
    exact ⟨_, List.mem_map_of_mem (hall k hk), mem_block_div hsize hk⟩

end PositionedWrite
