/-!
# A configuration to begin with

The text of a configuration file in which every setting has its usual value, with a comment on
each.
-/

namespace ShardIndex.Config

/-- The lines of the configuration file to begin with. -/
def templateLines : List String :=
  [ "# chronicle-index Configuration",
    "#",
    "# Environment variables override these settings:",
    "# - CHRONICLE_INDEX_DATA_DIR",
    "# - CHRONICLE_INDEX_PARALLELISM",
    "# - CHRONICLE_INDEX_TTL_HOURS",
    "# - CHRONICLE_INDEX_LOG_LEVEL",
    "# - CHRONICLE_INDEX_LOG_FORMAT",
    "",
    "[store]",
    "# Directory holding the column store and the per-shard index files",
    "data_dir = \"~/.local/share/chronicle-index\"",
    "",
    "# Rows fetched per page when scanning partition keys",
    "scan_batch_size = 4096",
    "",
    "[bootstrap]",
    "# Records indexed concurrently by the parallel paths",
    "# (defaults to the number of available cores)",
    "# parallelism = 8",
    "",
    "# Downsample checkpoints never reach further back than this (hours)",
    "downsample_ttl_hours = 168",
    "",
    "# Raw schemas and the downsample schema their series map to.",
    "# Omit `downsample` for schemas that are not downsampled.",
    "[[bootstrap.schemas]]",
    "name = \"gauge\"",
    "downsample = \"ds-gauge\"",
    "",
    "[[bootstrap.schemas]]",
    "name = \"counter\"",
    "downsample = \"ds-counter\"",
    "",
    "[[bootstrap.schemas]]",
    "name = \"untyped\"",
    "",
    "[logging]",
    "# Log level: trace, debug, info, warn, error",
    "level = \"info\"",
    "",
    "# Log format: pretty (for development) or json (for production)",
    "format = \"pretty\"",
    "",
    "# Optional log file path",
    "# file = \"/var/log/chronicle-index/chronicle-index.log\"",
    "" ]

/-- The configuration file to begin with. -/
def template : String := String.intercalate "\n" templateLines

end ShardIndex.Config
