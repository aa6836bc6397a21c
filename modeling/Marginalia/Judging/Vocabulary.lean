/-! The words and phrases that verdicts rest on. Phrases are written as people type them. -/

namespace Marginalia.Judging

/-- Conversational framing of the writing or reading of code. -/
def fillerPhrases : List String := [
  "this function", "this method", "this class", "this module", "this component", "this hook",
  "this utility", "this helper", "here's how we", "here's", "here we", "here is", "let's", "let us",
  "i will", "we will", "we need to", "we can", "this is where we", "the following", "below is",
  "above is", "as you can see", "note that", "notice that", "importantly", "essentially",
  "basically", "great", "awesome", "congratulations", "in order to", "it is important to",
  "it should be noted", "this allows us to", "this enables", "this provides", "this handles",
  "responsible for"]

/-- Markers that stand alone and explain nothing. -/
def placeholderMarkers : List String := [
  "xxx", "todo", "fixme", "hack", "tbd", "wtf", "fix later", "works somehow", "don't touch",
  "legacy", "ugh", "temp", "cleanup needed", "why", "magic number", "sorry", "good enough",
  "needs refactor", "not ideal", "idk"]

/-- Verbs that assert a guarantee about what code does. -/
def claimVerbs : List String := [
  "ensure", "ensures", "guarantee", "guarantees", "guaranteed", "validates", "verifies", "prevents",
  "protects"]

/-- Phrases that assert safety or importance. -/
def affectiveClaims : List String := [
  "this ensures", "important security step", "always safe", "completely safe", "fully secure",
  "never fails", "cannot fail", "bulletproof"]

/-- Identifier parts that show a check behind a claim. -/
def checkWords : List String := [
  "assert", "throw", "throws", "raise", "panic", "require", "expect", "validate", "verify", "check",
  "ensure", "guard", "bail", "unreachable"]

/-- Function words, which carry no information of their own. -/
def stopWords : List String := [
  "a", "an", "the", "this", "that", "these", "those", "is", "are", "was", "were", "be", "been",
  "being", "has", "have", "had", "do", "does", "did", "we", "us", "our", "you", "your", "i", "it",
  "its", "they", "them", "their", "he", "she", "to", "of", "in", "on", "at", "by", "for", "with",
  "from", "as", "and", "or", "but", "if", "then", "so", "not", "no", "yes", "into", "onto", "out",
  "up", "down", "over", "under", "about", "before", "after", "while", "when", "where", "which",
  "who", "whom", "what", "why", "how", "here", "there", "all", "any", "each", "every", "some",
  "such", "only", "own", "same", "than", "too", "very", "can", "will", "just", "should", "would",
  "could", "may", "might", "must", "shall", "let", "lets", "also", "again", "more", "most", "other",
  "through", "because", "until", "between", "during", "without", "within", "whether", "both", "few",
  "many", "much", "one", "ones", "now", "first", "next", "finally", "ll", "ve", "re", "s", "t", "d",
  "m"]

/-- Words so common in comments on code that they add nothing. -/
def genericWords : List String := [
  "handle", "handles", "handling", "process", "processes", "processing", "logic", "code",
  "function", "functions", "method", "methods", "data", "value", "values", "stuff", "thing",
  "things", "work", "works", "make", "makes", "need", "needs", "call", "calls", "use", "uses",
  "used", "using", "implementation", "implement", "implements", "functionality", "utilized",
  "utility", "helper", "simple", "basic", "actually", "really", "way", "part", "proper", "properly",
  "correct", "correctly", "create", "creates", "get", "gets", "set", "sets", "calculate",
  "calculates", "compute", "computes", "iterate", "iterates", "loop", "loops", "number", "numbers",
  "variable", "result", "results", "return", "returns", "step", "case", "cases"]

end Marginalia.Judging
