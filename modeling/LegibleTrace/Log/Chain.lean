import LegibleTrace.Log.Library

/-! The configuration of the logging library. -/
namespace LegibleTrace.Log

-- Each line relies on those ahead of it: what the program says of itself goes over what is merged,
-- and only entries of the levels in force are labelled, filled and written.
def sharedProcessors : List Processor :=
  [ .mergeContext,
    .call addContext,
    .filterByLevel,
    .addLoggerName,
    .addLogLevel,
    .positionalArguments,
    .timeStamper,
    .stackInfo,
    .exceptionInfo,
    .unicodeDecoder ]

def chain (format : Format) : List Processor :=
  sharedProcessors ++ [.renderer format]

def config (format : Format) : Config where
  processors := chain format
  cachesFirstUse := true

end LegibleTrace.Log
