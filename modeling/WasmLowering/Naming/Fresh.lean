/-! Fresh names. A name that is taken is tried again with a number behind it, and
the least number that makes it free is used. -/

namespace WasmLowering.Naming

/-- The least counter from `start` on whose candidate is free, if one of the next
`fuel` is; candidates for different counters are different, so as much fuel as
there are taken names is always enough. -/
def leastFree (isTaken : String → Bool) (candidate : Nat → String) : (fuel start : Nat) → Nat
  | 0, start => start
  | fuel + 1, start =>
      if isTaken (candidate start) then leastFree isTaken candidate fuel (start + 1) else start

/-- A name with a counter behind it; the counter zero is left out. -/
def numbered (name : String) (counter : Nat) : String :=
  if counter = 0 then name else name ++ "_" ++ toString counter

def fresh (isTaken : String → Bool) (size : Nat) (name : String) : String :=
  numbered name (leastFree isTaken (numbered name) size 0)

def positional (letter : String) (position : Nat) : String :=
  letter ++ toString position

example : fresh ["a", "a_1"].contains 2 "a" = "a_2" := by decide
example : fresh ["a", "a_1"].contains 2 "b" = "b" := by decide

theorem leastFree_of_free {isTaken : String → Bool} {candidate : Nat → String} {start : Nat}
    (free : isTaken (candidate start) = false) (fuel : Nat) :
    leastFree isTaken candidate fuel start = start := by
  cases fuel with
  | zero => rfl
  | succ fuel => simp [leastFree, free]

end WasmLowering.Naming
