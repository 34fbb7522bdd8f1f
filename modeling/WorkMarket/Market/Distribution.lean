import WorkMarket.Market.Worker
import WorkMarket.Number.Scalar

/-!
# Who is working on what

Hashpower is summed by puzzle.  Puzzles that differ only in how they encode
the target are one; the sum stands under the first of them.
-/

namespace WorkMarket

/-- A worker on a puzzle. -/
structure Working (α : Type) where
  worker : WorkerId
  puzzle : Puzzle
  hashpower : α
deriving DecidableEq

namespace Distribution

variable {α : Type} [Scalar α]

/-- Add hashpower to the share of an equivalent puzzle, or begin a share. -/
def add
    (puzzle : Puzzle)
    (hashpower : α) :
    List (Puzzle × α) → List (Puzzle × α)
  | [] => [(puzzle, Scalar.zero + hashpower)]
  | share :: rest =>
      if share.1.equivalent puzzle then (share.1, share.2 + hashpower) :: rest
      else share :: add puzzle hashpower rest

/-- The hashpower on each puzzle. -/
def ofWorkers
    (workers : List (Working α)) :
    List (Puzzle × α) :=
  workers.foldl (fun shares worker => add worker.puzzle worker.hashpower shares) []

/-- The hashpower of all workers. -/
def totalHashpower
    (workers : List (Working α)) :
    α :=
  Scalar.sum (workers.map Working.hashpower)

end Distribution

end WorkMarket
