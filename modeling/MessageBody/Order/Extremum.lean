/-! # The lesser and the greater

    Of two values that neither is below the other the first is taken, so that
    values without an order among them, such as what is not a number, do not
    displace what came before. -/

namespace MessageBody.Order

variable {α : Type} [LT α] [DecidableLT α]

/-- The lesser of two values, the first unless the second is below it. -/
def lesser (x y : α) : α := if y < x then y else x

/-- The greater of two values, the first unless the second is above it. -/
def greater (x y : α) : α := if x < y then y else x

/-- The least of `x` and further values. -/
def least (x : α) (ys : List α) : α := ys.foldl lesser x

/-- The greatest of `x` and further values. -/
def greatest (x : α) (ys : List α) : α := ys.foldl greater x

end MessageBody.Order
