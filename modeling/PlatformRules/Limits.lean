namespace PlatformRules

/-- What a build sets. A document has room for the longest line and its end, and the places in a
document fit 32 bits. -/
class Limits where
  maxLineLength : Nat
  maxDocumentSize : Nat
  maxActions : Nat
  maxObservers : Nat
  memoryCapacity : Nat
  maxMessageLength : Nat
  maxLineLength_lt : maxLineLength < maxDocumentSize
  maxDocumentSize_le : maxDocumentSize ≤ 67108864
  memoryCapacity_pos : 0 < memoryCapacity

export Limits (maxLineLength maxDocumentSize maxActions maxObservers memoryCapacity
  maxMessageLength)

instance developmentLimits : Limits where
  maxLineLength := 65536
  maxDocumentSize := 16777216
  maxActions := 1024
  maxObservers := 64
  memoryCapacity := 8192
  maxMessageLength := 4096
  maxLineLength_lt := by decide
  maxDocumentSize_le := by decide
  memoryCapacity_pos := by decide

end PlatformRules
