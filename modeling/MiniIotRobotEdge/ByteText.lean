import MiniIotRobotEdge.ByteMemory

/-!
# Strings with a final zero

A string of C in memory ends in front of its first zero byte.  `strncpy` fills
its whole target: what the string leaves is set to zero.
-/

namespace MiniIotRobotEdge

namespace Memory

/-- The string at an address of memory that ends at `limit`. -/
def text (memory : Memory) (address limit : Nat) : List UInt8 :=
  (memory.bytes address (limit - address)).takeWhile (· ≠ 0)

/-- `text` has no zero of its own. -/
def strncpy (memory : Memory) (target : Nat) (text : List UInt8) (count : Nat) : Memory :=
  memory.writeBytes target ((text.take count).rightpad count 0)

variable {memory : Memory} {address count limit : Nat} {string : List UInt8}

/-- An array that is filled up with zeros holds a string. -/
theorem text_eq (noZero : ∀ byte ∈ string, byte ≠ 0) (short : string.length < count)
    (inside : address + count ≤ limit)
    (isArray : memory.bytes address count = string.rightpad count 0) :
    memory.text address limit = string := by
  obtain ⟨zeros, counted⟩ : ∃ zeros, count - string.length = zeros + 1 :=
    ⟨count - string.length - 1, by omega⟩
  have split : limit - address = count + (limit - address - count) := by omega
  rw [text, split, bytes_append, isArray, List.rightpad, counted, List.replicate_succ,
    List.append_assoc, List.takeWhile_append_of_pos (by simpa using noZero), List.cons_append,
    List.takeWhile_cons_of_neg (by simp), List.append_nil]

theorem strncpy_outside {target : Nat} (outside : target < address ∨ address + count ≤ target) :
    memory.strncpy address string count target = memory target := by
  apply writeBytes_outside
  rw [List.rightpad, List.length_append, List.length_replicate, List.length_take]
  omega

/-- With the zero behind it, `strncpy` leaves the string padded. -/
theorem bytes_strncpy (short : string.length ≤ count) :
    bytes (Function.update (memory.strncpy address string count) (address + count) 0) address
      (count + 1) = string.rightpad (count + 1) 0 := by
  have length : (string.rightpad count 0).length = count := by
    rw [List.rightpad, List.length_append, List.length_replicate]
    omega
  have written : memory.strncpy address string count =
      memory.writeBytes address (string.rightpad count 0) := by
    rw [strncpy, List.take_of_length_le short]
  have front : bytes (Function.update (memory.strncpy address string count) (address + count) 0)
      address count = string.rightpad count 0 := by
    have kept := bytes_writeBytes_self memory address (string.rightpad count 0)
    rw [length] at kept
    rw [← kept, written]
    exact bytes_congr fun target _ below => Function.update_of_ne (by omega) ..
  have zeros : count + 1 - string.length = count - string.length + 1 := by omega
  rw [bytes_append, front, List.rightpad, List.rightpad, zeros, List.replicate_succ',
    ← List.append_assoc]
  congr 1
  exact congrArg (fun byte => [byte]) (Function.update_self ..)

end Memory

end MiniIotRobotEdge
