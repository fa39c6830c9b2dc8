import Clear.Ai.Rag.Engine

/-!
# Prices and token estimates

`app/ai/rag/providers.py`: what a call to a model costs, and how many tokens a text is taken to
have. Numbers are exact.
-/

namespace Clear

namespace Pricing

/-- Published prices for a million tokens, of input and of output. -/
abbrev Rates := Rat × Rat

/-- `_PRICING`, in the order of the table. -/
def pricing : List (String × Rates) :=
  [("gpt-4.1", (2, 8)),
    ("gpt-4.1-mini", (2 / 5, 8 / 5)),
    ("gpt-4.1-nano", (1 / 10, 2 / 5)),
    ("claude-fable-5", (10, 50)),
    ("claude-mythos-5", (10, 50)),
    ("claude-opus-5", (5, 25)),
    ("claude-opus-4-8", (5, 25)),
    ("claude-opus-4-7", (5, 25)),
    ("claude-opus-4-6", (5, 25)),
    ("claude-sonnet-5", (3, 15)),
    ("claude-sonnet-4-6", (3, 15)),
    ("claude-haiku-4-5", (1, 5))]

def normalised (model : String) : String :=
  let name := ((Text.splitOn '/' model).getLast?).getD ""
  if Text.startsWith "anthropic." name then
    String.ofList (name.toList.drop "anthropic.".length)
  else name

def pricingKey (model : String) : String :=
  let name := normalised model
  if (pricing.lookup name).isSome then name
  else
    match pricing.find? fun known => Text.startsWith known.1 name with
    | some known => known.1
    | none => name

def rates (model : String) : Rates := (pricing.lookup (pricingKey model)).getD (0, 0)

def cacheReadMultiplier : Rat := 1 / 10

def cacheWriteMultiplier : Rat := 5 / 4

end Pricing

structure TokenUsage where
  inputTokens : Nat := 0
  outputTokens : Nat := 0
  cacheReadTokens : Nat := 0
  cacheWriteTokens : Nat := 0

open Pricing in
/-- Estimated spend, honouring cache pricing. -/
def TokenUsage.costUsd (usage : TokenUsage) (model : String) : Rat :=
  let million := 1000000
  Rag.roundTo 6
    (usage.inputTokens / million * (rates model).1 +
      usage.cacheReadTokens / million * (rates model).1 * cacheReadMultiplier +
      usage.cacheWriteTokens / million * (rates model).1 * cacheWriteMultiplier +
      usage.outputTokens / million * (rates model).2)

/-! ## Tokens -/

namespace Retrieval

def estimateTokens (text : String) : Nat :=
  if text = "" then 0
  else
    max 1 <|
      if 4 * text.toList.countP Text.isSpace < text.length then text.length * 10 / 36
      else text.length / 3

end Retrieval

end Clear
