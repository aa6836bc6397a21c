/-! Common English words and the vocabulary of programming, roughly the most frequent first. Regular
inflections are not listed, and no word is listed twice. -/

namespace Marginalia.Spelling

def wordList : List String := [
  "the", "of", "and", "to", "a", "in", "is", "it", "you", "that", "he", "was", "for", "on", "are",
  "with", "as", "his", "they", "be", "at", "one", "have", "this", "from", "or", "had", "by", "not",
  "word", "but", "what", "some", "we", "can", "out", "other", "were", "all", "there", "when", "up",
  "use", "your", "how", "said", "an", "each", "she", "which", "do", "their", "time", "if", "will",
  "way", "about", "many", "then", "them", "write", "would", "like", "so", "these", "her", "long",
  "make", "thing", "see", "him", "two", "has", "look", "more", "day", "could", "go", "come", "did",
  "number", "sound", "no", "most", "people", "my", "over", "know", "water", "than", "call", "first",
  "who", "may", "down", "side", "been", "now", "find", "any", "new", "work", "part", "take", "get",
  "place", "made", "live", "where", "after", "back", "little", "only", "round", "man", "year",
  "came", "show", "every", "good", "me", "give", "our", "under", "name", "very", "through", "just",
  "form", "sentence", "great", "think", "say", "help", "low", "line", "differ", "turn", "cause",
  "much", "mean", "before", "move", "right", "boy", "old", "too", "same", "tell", "does", "set",
  "three", "want", "air", "well", "also", "play", "small", "end", "put", "home", "read", "hand",
  "port", "large", "spell", "add", "even", "land", "here", "must", "big", "high", "such", "follow",
  "act", "why", "ask", "men", "change", "went", "light", "kind", "off", "need", "house", "picture",
  "try", "us", "again", "animal", "point", "mother", "world", "near", "build", "self", "earth",
  "father", "head", "stand", "own", "page", "should", "country", "found", "answer", "school",
  "grow", "study", "still", "learn", "plant", "cover", "food", "sun", "four", "between", "state",
  "keep", "eye", "never", "last", "let", "thought", "city", "tree", "cross", "farm", "hard",
  "start", "might", "story", "saw", "far", "sea", "draw", "left", "late", "run", "while", "press",
  "close", "night", "real", "life", "few", "north", "open", "seem", "together", "next", "white",
  "children", "begin", "got", "walk", "example", "ease", "paper", "group", "always", "music",
  "those", "both", "mark", "often", "letter", "until", "mile", "river", "car", "feet", "care",
  "second", "book", "carry", "took", "science", "eat", "room", "friend", "began", "idea", "fish",
  "mountain", "stop", "once", "base", "hear", "horse", "cut", "sure", "watch", "color", "face",
  "wood", "main", "enough", "plain", "girl", "usual", "young", "ready", "above", "ever", "red",
  "list", "though", "feel", "talk", "bird", "soon", "body", "dog", "family", "direct", "pose",
  "leave", "song", "measure", "door", "product", "black", "short", "numeral", "class", "wind",
  "question", "happen", "complete", "ship", "area", "half", "rock", "order", "fire", "south",
  "problem", "piece", "told", "knew", "pass", "since", "top", "whole", "king", "space", "heard",
  "best", "hour", "better", "true", "during", "hundred", "five", "remember", "step", "early",
  "hold", "west", "ground", "interest", "reach", "fast", "verb", "sing", "listen", "six", "table",
  "travel", "less", "morning", "ten", "simple", "several", "vowel", "toward", "war", "lay",
  "against", "pattern", "slow", "center", "love", "person", "money", "serve", "appear", "road",
  "map", "rain", "rule", "govern", "pull", "cold", "notice", "voice", "unit", "power", "town",
  "fine", "certain", "fly", "fall", "lead", "cry", "dark", "machine", "note", "wait", "plan",
  "figure", "star", "box", "noun", "field", "rest", "correct", "able", "pound", "done", "beauty",
  "drive", "stood", "contain", "front", "teach", "week", "final", "gave", "green", "oh", "quick",
  "develop", "ocean", "warm", "free", "minute", "strong", "special", "mind", "behind", "clear",
  "tail", "produce", "fact", "street", "inch", "multiply", "nothing", "course", "stay", "wheel",
  "full", "force", "blue", "object", "decide", "surface", "deep", "moon", "island", "foot",
  "system", "busy", "test", "record", "boat", "common", "gold", "possible", "plane", "stead", "dry",
  "wonder", "laugh", "thousand", "ago", "ran", "check", "game", "shape", "equate", "hot", "miss",
  "brought", "heat", "snow", "tire", "bring", "yes", "distant", "fill", "east", "paint", "language",
  "among", "because", "believe", "receive", "separate", "definitely", "occurred", "necessary",
  "beginning", "weird", "apparently", "immediately", "occurrence", "recommend", "reference",
  "calendar", "environment", "available", "development", "successful", "successfully", "success",
  "function", "return", "variable", "parameter", "argument", "authenticate", "authentication",
  "authenticated", "user", "username", "password", "credential", "credentials", "identity",
  "security", "secure", "important", "ensure", "guarantee", "validate", "valid", "invalid",
  "validation", "verify", "handle", "process", "query", "database", "compare", "comparison",
  "proceed", "proceeding", "utility", "format", "formatting", "date", "human", "readable",
  "calculate", "factorial", "recursive", "recursively", "determine", "whether", "given", "prime",
  "divisible", "divisibility", "divisor", "square", "root", "efficient", "approach", "reduce",
  "unnecessary", "iterate", "iteration", "potential", "cleanup", "ideal", "value", "values",
  "string", "integer", "array", "objects", "method", "module", "component", "helper", "service",
  "client", "server", "request", "response", "error", "errors", "exception", "result", "results",
  "input", "output", "file", "files", "path", "directory", "config", "configuration", "option",
  "options", "setting", "settings", "default", "cache", "buffer", "memory", "thread", "threads",
  "lock", "async", "await", "callback", "event", "events", "handler", "index", "key", "count",
  "counter", "length", "size", "limit", "rate", "offset", "range", "byte", "bytes", "token",
  "tokens", "parse", "parser", "compile", "compiler", "runtime", "type", "types", "fields",
  "struct", "enum", "trait", "interface", "implement", "implementation", "instance", "constructor",
  "property", "properties", "attribute", "element", "elements", "item", "items", "node", "nodes",
  "graph", "edge", "edges", "loop", "condition", "branch", "case", "cases", "logic", "code",
  "comment", "comments", "document", "documentation", "workaround", "legacy", "temporary", "hack",
  "bug", "fix", "issue", "deprecated", "support", "supported", "allow", "allowed", "prevent",
  "avoid", "skip", "ignore", "retry", "timeout", "fail", "failure", "failed", "succeed", "passed",
  "initialize", "initial", "create", "created", "update", "updated", "delete", "deleted", "remove",
  "removed", "insert", "append", "store", "load", "save", "send", "fetch", "connect", "connection",
  "disconnect", "serialize", "deserialize", "encode", "decode", "convert", "transform", "filter",
  "sort", "sorted", "merge", "split", "join", "trim", "match", "matches", "search", "lookup",
  "select", "include", "exclude", "contains", "empty", "null", "none", "zero", "positive",
  "negative", "maximum", "minimum", "average", "total", "sum", "status", "flag", "mode", "level",
  "debug", "info", "warning", "log", "logging", "metric", "metrics", "trace", "performance",
  "optimize", "optimization", "expensive", "cheap", "safe", "unsafe", "concurrent", "parallel",
  "sequential", "ordering", "unique", "duplicate", "duplicated", "original", "copy", "clone",
  "pointer", "owner", "borrow", "lifetime", "scope", "global", "local", "private", "public",
  "internal", "external", "api", "http", "url", "json", "yaml", "html", "regex", "template",
  "account", "session", "login", "logout", "permission", "role", "admin", "hash", "hashed",
  "hashing", "encrypt", "encryption", "decrypt", "secret", "signature", "certificate", "something",
  "anything", "everything", "really", "actually", "basically", "essentially", "simply", "probably",
  "maybe", "perhaps", "already", "almost", "however", "otherwise", "therefore", "instead", "within",
  "without", "across", "along", "around", "below", "beyond", "inside", "outside", "upon", "onto",
  "into", "per", "via", "whose", "whom", "its", "itself", "ourselves", "yourself", "themselves",
  "lets", "okay", "ok", "awesome", "nice", "cool", "sorry", "please", "thanks", "wow", "voila",
  "finally", "later", "currently", "previously", "following", "dont", "doesnt", "isnt", "cant",
  "wont", "didnt", "shouldnt", "wouldnt", "couldnt", "thats", "whats", "theres", "youre", "ive",
  "im", "arent", "wasnt", "hasnt", "havent"]

end Marginalia.Spelling
